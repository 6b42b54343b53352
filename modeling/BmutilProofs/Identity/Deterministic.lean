import BmutilProofs.Identity.Private
import BmutilProofs.Reference

/-!
`NewDeterministic` follows the reference derivation. Attempt `k` takes its signing key
from SHA-512 of the passphrase and the varint of `2k`, and its decryption key from that of
`2k + 1` (as uint64 values); the two nonces run on across identities. Identity `i` is the
`i`-th attempt whose address hash begins with the required zero bytes, so the first `m`
identities do not depend on how many are asked for. The searches run on fuel, and return
whenever no run of `fuel` consecutive attempts all fail.
-/

namespace BmutilProofs.Deterministic

open BmutilProofs.Stream BmutilProofs.Model BmutilProofs.Identity BmutilProofs.Reference

variable (env : Env) (passphrase : Bytes) (initialZeros : UInt64)

/-- The key pair of attempt `k` by the reference derivation. -/
def attemptKeys (k : Nat) : PrivateKey × PrivateKey :=
  (env.privKeyFromBytes ((env.sha512 (passphrase ++ env.varInt.write (UInt64.ofNat (2 * k)))).take 32),
   env.privKeyFromBytes ((env.sha512 (passphrase ++ env.varInt.write (UInt64.ofNat (2 * k + 1)))).take 32))

/-- Attempt `k` succeeds: RIPEMD-160 of SHA-512 of the two uncompressed public keys begins
with `initialZeros` zero bytes. -/
def attemptFound (k : Nat) : Bool :=
  decide (List.replicate initialZeros.toNat 0 <+:
    env.ripemd160 (env.sha512 (env.serializeUncompressed (env.pubKey (attemptKeys env passphrase k).1) ++
      env.serializeUncompressed (env.pubKey (attemptKeys env passphrase k).2))))

/-- The identity of attempt `k`. -/
def attemptIdentity (k : Nat) : Private :=
  ⟨none, env.defaultPow, (attemptKeys env passphrase k).1, (attemptKeys env passphrase k).2, 0⟩

variable {env passphrase initialZeros}

lemma nonce_succ (k : Nat) : UInt64.ofNat (2 * k) + 2 = UInt64.ofNat (2 * (k + 1)) :=
  UInt64.toNat.inj (by simp [UInt64.toNat_add]; omega)

lemma nonce_succ' (k : Nat) : UInt64.ofNat (2 * k + 1) + 2 = UInt64.ofNat (2 * (k + 1) + 1) :=
  UInt64.toNat.inj (by simp [UInt64.toNat_add]; omega)

lemma hasInitialZeros_iff (h : Bytes) (z : Nat) :
    hasInitialZeros h z = true ↔ List.replicate z 0 <+: h := by
  rw [List.prefix_iff_eq_take, List.length_replicate, hasInitialZeros, beq_iff_eq, eq_comm]

/-- The check of the search at the nonces of attempt `k` is the reference test. -/
lemma hasInitialZeros_attempt (id : Private) (k : Nat) :
    hasInitialZeros (Private.hash env { id with
        signingKey := deterministicKey env passphrase (UInt64.ofNat (2 * k)),
        decryptionKey := deterministicKey env passphrase (UInt64.ofNat (2 * k + 1)) })
      initialZeros.toNat = attemptFound env passphrase initialZeros k := by
  rw [attemptFound, Bool.eq_iff_iff, hasInitialZeros_iff, decide_eq_true_iff]
  rfl

/-- A search that starts at attempt `k` and ends finds the first successful attempt
`k + j`, and leaves the nonces of attempt `k + j + 1`. -/
lemma searchKeys_spec {fuel : Nat} {id id' : Private} {k : Nat} {s d : UInt64}
    (h : searchKeys env passphrase initialZeros fuel id (UInt64.ofNat (2 * k)) (UInt64.ofNat (2 * k + 1)) =
      some (id', s, d)) :
    ∃ j, (∀ i < j, attemptFound env passphrase initialZeros (k + i) = false) ∧
      attemptFound env passphrase initialZeros (k + j) = true ∧
      id' = { id with signingKey := (attemptKeys env passphrase (k + j)).1,
                      decryptionKey := (attemptKeys env passphrase (k + j)).2 } ∧
      s = UInt64.ofNat (2 * (k + j + 1)) ∧ d = UInt64.ofNat (2 * (k + j + 1) + 1) := by
  induction fuel generalizing id k with
  | zero => simp [searchKeys] at h
  | succ fuel ih =>
    rw [searchKeys, hasInitialZeros_attempt, nonce_succ, nonce_succ'] at h
    split_ifs at h with hf
    · -- attempt `k` succeeds
      cases h
      exact ⟨0, by simp, by simpa using hf, rfl, rfl, rfl⟩
    · -- it fails; the search goes on at attempt `k + 1`
      obtain ⟨j, hbefore, hj, rfl, rfl, rfl⟩ := ih h
      refine ⟨j + 1, fun i hi => ?_, by simpa [Nat.add_right_comm, Nat.add_assoc] using hj, ?_, ?_, ?_⟩
      · rcases i with _ | i
        · simpa using hf
        · simpa [Nat.add_right_comm, Nat.add_assoc] using hbefore i (by omega)
      all_goals simp [Nat.add_right_comm, Nat.add_assoc]

/-- The outer loop from attempt `k` makes `n` identities, those of the successful attempts
from `k` on, in order. -/
lemma generateKeys_spec {fuel n k : Nat} {ids : List Private}
    (h : generateKeys env passphrase initialZeros fuel n (UInt64.ofNat (2 * k)) (UInt64.ofNat (2 * k + 1)) =
      some ids) :
    ids.length = n ∧ ∃ K, ids = ((List.range' k K).filter (attemptFound env passphrase initialZeros)).map
      (attemptIdentity env passphrase) := by
  induction n generalizing k ids with
  | zero =>
    cases h
    exact ⟨rfl, 0, rfl⟩
  | succ n ih =>
    obtain ⟨⟨id, s, d⟩, hs, h⟩ := Option.bind_eq_some.mp h
    obtain ⟨ids', hg, h⟩ := Option.bind_eq_some.mp h
    cases h
    obtain ⟨j, hbefore, hj, rfl, rfl, rfl⟩ := searchKeys_spec hs
    obtain ⟨hlen, K, rfl⟩ := ih hg
    refine ⟨by simp [hlen], j + 1 + K, ?_⟩
    have hnil : (List.range' k j).filter (attemptFound env passphrase initialZeros) = [] :=
      List.filter_eq_nil_iff.mpr fun i hi => by
        obtain ⟨hki, hij⟩ := List.mem_range'_1.mp hi
        simpa [Nat.add_sub_cancel' hki] using hbefore (i - k) (by omega)
    have hsplit : List.range' k (j + 1 + K) = List.range' k j ++ (k + j) :: List.range' (k + j + 1) K := by
      rw [show j + 1 + K = (K + 1) + j by omega, ← List.range'_append_1, List.range'_succ]
    rw [hsplit, List.filter_append, hnil, List.filter_cons_of_pos hj]
    rfl

/-- Asking for fewer identities gives the first of them. -/
lemma generateKeys_take {fuel n m : Nat} {s d : UInt64} {ids : List Private}
    (h : generateKeys env passphrase initialZeros fuel n s d = some ids) (hm : m ≤ n) :
    generateKeys env passphrase initialZeros fuel m s d = some (ids.take m) := by
  induction n generalizing m s d ids with
  | zero =>
    cases h
    obtain rfl : m = 0 := by omega
    rfl
  | succ n ih =>
    obtain ⟨⟨id, s', d'⟩, hs, h⟩ := Option.bind_eq_some.mp h
    obtain ⟨ids', hg, h⟩ := Option.bind_eq_some.mp h
    cases h
    rcases m with _ | m
    · rfl
    · have hm' : m ≤ n := by omega
      simp [generateKeys, hs, ih hg hm']

/-- The identities `NewDeterministic` returns have no address. -/
lemma newDeterministic_address {fuel n : Nat} {ids : List Private}
    (h : newDeterministic env fuel passphrase initialZeros n = some (.ok ids)) :
    ∀ id ∈ ids, id.address = none := by
  unfold newDeterministic at h
  split_ifs at h
  · cases h
  obtain ⟨ids', hg, hids⟩ := Option.map_eq_some'.mp h
  cases hids
  obtain ⟨-, K, rfl⟩ := generateKeys_spec (k := 0) hg
  intro id hid
  obtain ⟨_, -, rfl⟩ := List.mem_map.mp hid
  rfl

/-- **`NewDeterministic` follows the reference derivation.** When it returns, it returns
`n` identities; they are those of the successful attempts in increasing order, each with
the keys the reference derives for its attempt; and asking for `m ≤ n` identities returns
the first `m` of them. -/
theorem newDeterministic_spec {fuel n : Nat} {ids : List Private}
    (h : newDeterministic env fuel passphrase initialZeros n = some (.ok ids)) :
    ids.length = n ∧
      (∃ K, ids = ((List.range K).filter (attemptFound env passphrase initialZeros)).map
        (attemptIdentity env passphrase)) ∧
      ∀ m ≤ n, newDeterministic env fuel passphrase initialZeros m = some (.ok (ids.take m)) := by
  unfold newDeterministic at h ⊢
  split_ifs at h ⊢ with hz
  · cases h
  · obtain ⟨ids', hg, hids⟩ := Option.map_eq_some'.mp h
    cases hids
    have hg₀ : generateKeys env passphrase initialZeros fuel n (UInt64.ofNat (2 * 0))
        (UInt64.ofNat (2 * 0 + 1)) = some ids := hg
    obtain ⟨hlen, K, hK⟩ := generateKeys_spec hg₀
    exact ⟨hlen, ⟨K, by rw [List.range_eq_range']; exact hK⟩,
      fun m hm => by rw [generateKeys_take hg hm]; rfl⟩

/-- The reference collaborators with a RIPEMD-160 whose first byte is the second lowest bit of
the last byte hashed. With the empty passphrase that byte is the low byte of the nonce `2k + 1`,
so attempt `k` succeeds for even `k` below 128 and fails for odd `k`. -/
def sparseEnv : Env := { refEnv with ripemd160 := fun b => (b.getLastD 0 / 2 % 2) :: b.take 19 }

/-- Two identities where attempt one fails: the search passes over it, and the second identity
is that of attempt two. -/
theorem newDeterministic_two :
    attemptFound sparseEnv [] 1 1 = false ∧
      newDeterministic sparseEnv 2 [] 1 2 =
        some (.ok [attemptIdentity sparseEnv [] 0, attemptIdentity sparseEnv [] 2]) ∧
      [attemptIdentity sparseEnv [] 0, attemptIdentity sparseEnv [] 2].length = 2 ∧
      (∃ K, [attemptIdentity sparseEnv [] 0, attemptIdentity sparseEnv [] 2] =
        ((List.range K).filter (attemptFound sparseEnv [] 1)).map (attemptIdentity sparseEnv [])) ∧
      ∀ m ≤ 2, newDeterministic sparseEnv 2 [] 1 m =
        some (.ok ([attemptIdentity sparseEnv [] 0, attemptIdentity sparseEnv [] 2].take m)) :=
  have h : newDeterministic sparseEnv 2 [] 1 2 =
      some (.ok [attemptIdentity sparseEnv [] 0, attemptIdentity sparseEnv [] 2]) := rfl
  ⟨rfl, h, newDeterministic_spec h⟩

/-! ### When `NewDeterministic` returns -/

/-- A search that has a successful attempt within its fuel returns. -/
lemma searchKeys_isSome {fuel k j : Nat} (hj : j < fuel)
    (hf : attemptFound env passphrase initialZeros (k + j) = true) (id : Private) :
    ∃ r, searchKeys env passphrase initialZeros fuel id (UInt64.ofNat (2 * k)) (UInt64.ofNat (2 * k + 1)) =
      some r := by
  induction fuel generalizing id k j with
  | zero => omega
  | succ fuel ih =>
    rw [searchKeys, hasInitialZeros_attempt, nonce_succ, nonce_succ']
    split_ifs with hk
    · exact ⟨_, rfl⟩
    · -- attempt `k` fails, so the successful one is further on
      rcases j with _ | j
      · exact absurd hf hk
      · exact @ih (k + 1) j (by omega) (by rwa [Nat.add_right_comm, Nat.add_assoc]) _

/-- When no `fuel` consecutive attempts all fail, the outer loop returns. -/
lemma generateKeys_isSome {fuel : Nat}
    (hfuel : ∀ k, ∃ j < fuel, attemptFound env passphrase initialZeros (k + j) = true) (n k : Nat) :
    ∃ ids, generateKeys env passphrase initialZeros fuel n (UInt64.ofNat (2 * k)) (UInt64.ofNat (2 * k + 1)) =
      some ids := by
  induction n generalizing k with
  | zero => exact ⟨[], rfl⟩
  | succ n ih =>
    obtain ⟨j, hj, hf⟩ := hfuel k
    obtain ⟨⟨id, s, d⟩, hr⟩ := searchKeys_isSome hj hf newPrivate
    obtain ⟨j', -, -, -, rfl, rfl⟩ := searchKeys_spec hr
    obtain ⟨ids, hids⟩ := ih (k + j' + 1)
    exact ⟨Private.setDefaultPOWParams env id :: ids, by simp [generateKeys, hr, hids]⟩

/-- **`NewDeterministic` returns when successes are close enough.** When at least one initial
zero is asked for and no `fuel` consecutive attempts all fail, `NewDeterministic`, each of
its searches on `fuel` tries, returns identities for any number asked. -/
theorem newDeterministic_returns {fuel : Nat} (hz : 1 ≤ initialZeros)
    (hfuel : ∀ k, ∃ j < fuel, attemptFound env passphrase initialZeros (k + j) = true) (n : Nat) :
    ∃ ids, newDeterministic env fuel passphrase initialZeros n = some (.ok ids) := by
  obtain ⟨ids, h⟩ := generateKeys_isSome hfuel n 0
  have h₀ : generateKeys env passphrase initialZeros fuel n 0 1 = some ids := h
  exact ⟨ids, by simp [newDeterministic, UInt64.not_lt.mpr hz, h₀]⟩

/-- Three identities in the reference environment, where every attempt succeeds. -/
theorem newDeterministic_returns_ref :
    (1 : UInt64) ≤ 1 ∧ (∀ k, ∃ j < 1, attemptFound refEnv [] 1 (k + j) = true) ∧
      ∃ ids, newDeterministic refEnv 1 [] 1 3 = some (.ok ids) :=
  have hfuel : ∀ k, ∃ j < 1, attemptFound refEnv [] 1 (k + j) = true :=
    fun _ => ⟨0, Nat.one_pos, by simp [attemptFound, refEnv]⟩
  ⟨by decide, hfuel, newDeterministic_returns (by decide) hfuel 3⟩
end BmutilProofs.Deterministic

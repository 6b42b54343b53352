import BmutilProofs.Identity.Private

/-!
What the searches of `NewRandom` and `NewHD` return, and when they return.

Each search tries candidate decryption keys in turn and stops at the first one that makes
the hash of the identity start with zero bytes. On its fuel, a search returns an identity
exactly when such a key comes within the fuel after keys that were all tried and passed
over, and the identity it returns has that key. `NewRandom` draws its candidates from the
generator and ends on the generator's first error; `NewHD` takes the children `1, 2, ...` of
the address key, and passes over a child it cannot derive.
-/

namespace BmutilProofs.Identity

open BmutilProofs.Stream BmutilProofs.Model

/-- Child `i` of `a` is tried and passed over by the search of `NewHD`: it cannot be derived,
or the hash it makes with the signing key of `id` does not start with a zero byte. -/
def PassedOver (env : Env) (a : ExtendedKey) (id : Private) (i : UInt32) : Prop :=
  Failed (env.child a i) ∨
    ∃ k, env.child a i = .ok k ∧ (Private.hash env { id with decryptionKey := env.ecPrivKey k }).head? ≠ some 0

variable {env : Env}

lemma passedOver_congr {a : ExtendedKey} {id id' : Private} (hs : id.signingKey = id'.signingKey)
    (i : UInt32) : PassedOver env a id i ↔ PassedOver env a id' i := by
  have h : ∀ k, Private.hash env { id with decryptionKey := k } = Private.hash env { id' with decryptionKey := k } :=
    fun _ => hash_congr hs rfl
  simp only [PassedOver, h]

lemma toNat_uint32_ofNat (n : Nat) : (UInt32.ofNat n).toNat = n % 2 ^ 32 := rfl

lemma add_one_add_ofNat (i : UInt32) (j : Nat) : i + 1 + UInt32.ofNat j = i + UInt32.ofNat (j + 1) :=
  UInt32.toNat.inj (by simp [UInt32.toNat_add, toNat_uint32_ofNat, UInt32.size]; omega)

/-! ### `NewRandom` -/

/-- A search of `NewRandom` that finds an identity from key `i` on takes the first key `i + j`
that gives the zeros, within its fuel; the keys before it were generated and did not. -/
lemma searchRandomKey_spec {keys : Nat → Except LibError PrivateKey} {z fuel : Nat} {id id' : Private}
    {i : Nat} (h : searchRandomKey env keys z fuel id i = some (.ok id')) :
    ∃ j k, j < fuel ∧ keys (i + j) = .ok k ∧ id' = { id with decryptionKey := k } ∧
      hasInitialZeros (Private.hash env id') z = true ∧
      ∀ l < j, ∃ k, keys (i + l) = .ok k ∧
        hasInitialZeros (Private.hash env { id with decryptionKey := k }) z = false := by
  induction fuel generalizing id i with
  | zero => simp [searchRandomKey] at h
  | succ fuel ih =>
    simp only [searchRandomKey] at h
    rcases hk : keys i with e | k <;> rw [hk] at h
    · simp at h
    dsimp only at h
    split_ifs at h with hz
    · -- key `i` gives the zeros
      obtain rfl := Except.ok.inj (Option.some.inj h)
      exact ⟨0, k, Nat.zero_lt_succ _, hk, rfl, hz, fun l hl => absurd hl (Nat.not_lt_zero l)⟩
    · -- it does not: the search goes on from key `i + 1`
      obtain ⟨j, k', hj, hjk, rfl, hz', hbefore⟩ := ih h
      refine ⟨j + 1, k', by omega, by rwa [← Nat.add_assoc, Nat.add_right_comm], rfl, hz', fun l hl => ?_⟩
      rcases l with _ | l
      · exact ⟨k, hk, by simpa using hz⟩
      · obtain ⟨k'', hk'', hz''⟩ := hbefore l (by omega)
        exact ⟨k'', by rwa [Nat.add_right_comm, Nat.add_assoc] at hk'', hz''⟩

/-- A search that reaches, within its fuel, a key that gives the zeros after keys that were
generated and did not, returns the identity with that key. -/
lemma searchRandomKey_of_first {keys : Nat → Except LibError PrivateKey} {z fuel : Nat} {id : Private}
    {i j : Nat} {k : PrivateKey} (hj : j < fuel) (hk : keys (i + j) = .ok k)
    (hz : hasInitialZeros (Private.hash env { id with decryptionKey := k }) z = true)
    (hbefore : ∀ l < j, ∃ k, keys (i + l) = .ok k ∧
      hasInitialZeros (Private.hash env { id with decryptionKey := k }) z = false) :
    searchRandomKey env keys z fuel id i = some (.ok { id with decryptionKey := k }) := by
  induction j generalizing fuel id i with
  | zero =>
    obtain ⟨fuel, rfl⟩ : ∃ f, fuel = f + 1 := ⟨fuel - 1, by omega⟩
    simp [searchRandomKey, show keys i = .ok k from hk, hz]
  | succ j ih =>
    obtain ⟨k₀, hk₀, hz₀⟩ := hbefore 0 (Nat.zero_lt_succ j)
    obtain ⟨fuel, rfl⟩ : ∃ f, fuel = f + 1 := ⟨fuel - 1, by omega⟩
    simp only [searchRandomKey, show keys i = .ok k₀ from hk₀, hz₀, Bool.false_eq_true, if_false]
    exact ih (by omega) (by rwa [Nat.add_right_comm, Nat.add_assoc]) hz fun l hl => by
      simpa [Nat.add_right_comm, Nat.add_assoc] using hbefore (l + 1) (by omega)

/-- An identity `NewRandom` returns has the generator's first key as signing key and, as
decryption key, its first later key that makes the hash start with the zero bytes, within the
fuel. It has no address, the default proof-of-work parameters and behavior zero. -/
lemma newRandom_spec {keys : Nat → Except LibError PrivateKey} {fuel : Nat} {initialZeros : Int} {id : Private}
    (h : newRandom env keys fuel initialZeros = some (.ok id)) :
    1 ≤ initialZeros ∧ keys 0 = .ok id.signingKey ∧
      hasInitialZeros (Private.hash env id) initialZeros.toNat = true ∧
      (∃ j < fuel, keys (1 + j) = .ok id.decryptionKey ∧
        ∀ l < j, ∃ k, keys (1 + l) = .ok k ∧
          hasInitialZeros (Private.hash env { id with decryptionKey := k }) initialZeros.toNat = false) ∧
      id.address = none ∧ id.pow = env.defaultPow ∧ id.behavior = 0 := by
  unfold newRandom at h
  split_ifs at h with hz
  · simp at h
  rcases hs : keys 0 with e | sk <;> rw [hs] at h
  · simp at h
  obtain ⟨r, hr, hid⟩ := Option.map_eq_some'.mp h
  rcases r with e | id₀
  · cases hid
  cases hid
  obtain ⟨j, k, hj, hjk, rfl, hzeros, hbefore⟩ := searchRandomKey_spec hr
  exact ⟨not_lt.mp hz, rfl, hzeros, ⟨j, hj, hjk, hbefore⟩, rfl, rfl, rfl⟩

/-- **What `NewRandom` returns, and when.** On its fuel, `NewRandom` returns an identity
exactly when at least one initial zero is asked for, the generator's first key is the
identity's signing key, and the identity's decryption key is the first of the generator's
later keys, within the fuel, that makes the hash start with the zero bytes, every key
before it having been generated without error. The identity has no address, the default
proof-of-work parameters and behavior zero. -/
theorem newRandom_eq_some_ok_iff {keys : Nat → Except LibError PrivateKey} {fuel : Nat} {initialZeros : Int}
    {id : Private} :
    newRandom env keys fuel initialZeros = some (.ok id) ↔
      1 ≤ initialZeros ∧ keys 0 = .ok id.signingKey ∧
        hasInitialZeros (Private.hash env id) initialZeros.toNat = true ∧
        (∃ j < fuel, keys (1 + j) = .ok id.decryptionKey ∧
          ∀ l < j, ∃ k, keys (1 + l) = .ok k ∧
            hasInitialZeros (Private.hash env { id with decryptionKey := k }) initialZeros.toNat = false) ∧
        id.address = none ∧ id.pow = env.defaultPow ∧ id.behavior = 0 := by
  refine ⟨newRandom_spec, ?_⟩
  rintro ⟨hz, hs, hzeros, ⟨j, hj, hk, hbefore⟩, ha, hp, hb⟩
  obtain ⟨address, pow, sk, dk, behavior⟩ := id
  dsimp only at hs hk ha hp hb
  subst ha hp hb
  have hfound : searchRandomKey env keys initialZeros.toNat fuel { newPrivate with signingKey := sk } 1 =
      some (.ok { newPrivate with signingKey := sk, decryptionKey := dk }) :=
    searchRandomKey_of_first hj hk hzeros hbefore
  simp only [newRandom, if_neg (not_lt.mpr hz), hs, hfound]
  rfl

/-! ### `NewHD` -/

/-- A search of `NewHD` that finds an identity from child `i` on takes the first child
`i + j` within its fuel that gives the zero byte; the children before it were passed over. -/
lemma searchDecryptionKey_spec {a : ExtendedKey} {fuel : Nat} {id id' : Private} {i : UInt32}
    (h : searchDecryptionKey env a fuel id i = some id') :
    ∃ j k, j < fuel ∧ env.child a (i + UInt32.ofNat j) = .ok k ∧
      id' = { id with decryptionKey := env.ecPrivKey k } ∧ (Private.hash env id').head? = some 0 ∧
      ∀ l < j, PassedOver env a id (i + UInt32.ofNat l) := by
  induction fuel generalizing id i with
  | zero => simp [searchDecryptionKey] at h
  | succ fuel ih =>
    simp only [searchDecryptionKey] at h
    -- child `i` is passed over, and the search goes on from `i + 1` with the same signing key
    have hnext : ∀ {id₁ : Private}, searchDecryptionKey env a fuel id₁ (i + 1) = some id' →
        (∀ x, { id₁ with decryptionKey := x } = { id with decryptionKey := x }) → PassedOver env a id i →
        ∃ j k, j < fuel + 1 ∧ env.child a (i + UInt32.ofNat j) = .ok k ∧
          id' = { id with decryptionKey := env.ecPrivKey k } ∧ (Private.hash env id').head? = some 0 ∧
          ∀ l < j, PassedOver env a id (i + UInt32.ofNat l) := by
      intro id₁ h hs hi
      obtain ⟨j, k, hj, hk, rfl, hz, hbefore⟩ := ih h
      refine ⟨j + 1, k, by omega, by rwa [← add_one_add_ofNat], hs _, hz, fun l hl => ?_⟩
      rcases l with _ | l
      · simpa using hi
      · rw [← add_one_add_ofNat]
        simpa only [PassedOver, hs] using hbefore l (by omega)
    split at h
    · -- child `i` cannot be derived
      rename_i e he
      exact hnext h (fun _ => rfl) (.inl ⟨e, he⟩)
    · rename_i encKey he
      split_ifs at h with hz
      · -- child `i` gives the zero byte
        cases h
        exact ⟨0, encKey, Nat.zero_lt_succ _, by simpa using he, rfl, hz,
          fun l hl => absurd hl (Nat.not_lt_zero l)⟩
      · -- it does not
        exact hnext h (fun _ => rfl) (.inr ⟨encKey, he, hz⟩)

/-- A search that reaches, within its fuel, a child that gives the zero byte after children
that were all passed over, returns the identity with that child. -/
lemma searchDecryptionKey_of_first {a : ExtendedKey} {fuel : Nat} {id : Private} {i : UInt32} {j : Nat}
    {k : ExtendedKey} (hj : j < fuel) (hk : env.child a (i + UInt32.ofNat j) = .ok k)
    (hz : (Private.hash env { id with decryptionKey := env.ecPrivKey k }).head? = some 0)
    (hbefore : ∀ l < j, PassedOver env a id (i + UInt32.ofNat l)) :
    searchDecryptionKey env a fuel id i = some { id with decryptionKey := env.ecPrivKey k } := by
  induction j generalizing fuel id i with
  | zero =>
    obtain ⟨fuel, rfl⟩ : ∃ f, fuel = f + 1 := ⟨fuel - 1, by omega⟩
    simp [searchDecryptionKey, show env.child a i = .ok k by simpa using hk, hz]
  | succ j ih =>
    obtain ⟨fuel, rfl⟩ : ∃ f, fuel = f + 1 := ⟨fuel - 1, by omega⟩
    have hk' : env.child a (i + 1 + UInt32.ofNat j) = .ok k := by rwa [add_one_add_ofNat]
    have hb' : ∀ l < j, PassedOver env a id (i + 1 + UInt32.ofNat l) := fun l hl => by
      rw [add_one_add_ofNat]; exact hbefore (l + 1) (by omega)
    rcases (by simpa using hbefore 0 (Nat.zero_lt_succ j) : PassedOver env a id i) with
      ⟨e, he⟩ | ⟨k₀, hk₀, hz₀⟩
    · simp only [searchDecryptionKey, he]
      exact ih (by omega) hk' hz hb'
    · simp only [searchDecryptionKey, hk₀, hz₀, if_false]
      exact ih (by omega) hk' hz fun l hl => (passedOver_congr rfl _).mp (hb' l hl)

/-- An identity `NewHD` returns has the version-4 address of its keys on the stream asked
for, the default proof-of-work parameters and the behavior asked for. -/
lemma newHD_spec {fuel : Nat} {masterKey : ExtendedKey} {n stream behavior : UInt32} {id : Private}
    (h : newHD env fuel masterKey n stream behavior = some (.ok id)) :
    id.address = some ⟨4, stream.toUInt64, Private.hash env id⟩ ∧ id.pow = env.defaultPow ∧
      id.behavior = behavior := by
  unfold newHD at h
  split_ifs at h
  · simp at h
  split at h
  · simp at h
  · obtain ⟨id₀, hs, hid⟩ := Option.map_eq_some'.mp h
    obtain ⟨j, k, -, -, rfl, -⟩ := searchDecryptionKey_spec hs
    cases hid
    exact ⟨rfl, rfl, rfl⟩

lemma newHD_addressOfKeys {fuel : Nat} {masterKey : ExtendedKey} {n stream behavior : UInt32}
    {id : Private} (h : newHD env fuel masterKey n stream behavior = some (.ok id)) :
    AddressOfKeys env id :=
  ⟨_, (newHD_spec h).1, rfl⟩

/-- **What `NewHD` returns, and when.** On its fuel, `NewHD` returns an identity exactly when
the master key is private, the derivation `m / purpose' / n' / stream' / 0'` of the address
key `a` and of its child `0` succeeds, and within the fuel some child `1 + j` of `a` makes,
with the signing key of child `0`, a hash starting with a zero byte, every child before it
having been passed over. The identity has those two keys, the version-4 address of their
hash on the stream, the default proof-of-work parameters and the behavior asked for. -/
theorem newHD_eq_some_ok_iff {fuel : Nat} {masterKey : ExtendedKey} {n stream behavior : UInt32}
    {id : Private} :
    newHD env fuel masterKey n stream behavior = some (.ok id) ↔
      masterKey.isPrivate = true ∧ ∃ a signKey j k, hdAddressKey env masterKey n stream = .ok (a, signKey) ∧
        j < fuel ∧ env.child a (1 + UInt32.ofNat j) = .ok k ∧
        (∀ l < j, PassedOver env a id (1 + UInt32.ofNat l)) ∧ (Private.hash env id).head? = some 0 ∧
        id.signingKey = env.ecPrivKey signKey ∧ id.decryptionKey = env.ecPrivKey k ∧
        id.address = some ⟨4, stream.toUInt64, Private.hash env id⟩ ∧ id.pow = env.defaultPow ∧
        id.behavior = behavior := by
  constructor
  · intro h
    unfold newHD at h
    split_ifs at h with hp
    · simp at h
    split at h
    · simp at h
    rename_i a signKey hak
    obtain ⟨id₀, hs, hid⟩ := Option.map_eq_some'.mp h
    obtain ⟨j, k, hj, hk, rfl, hz, hbefore⟩ := searchDecryptionKey_spec hs
    cases hid
    exact ⟨by simpa using hp, a, signKey, j, k, hak, hj, hk, fun l hl => (passedOver_congr rfl _).mp (hbefore l hl),
      hz, rfl, rfl, rfl, rfl, rfl⟩
  · rintro ⟨hp, a, signKey, j, k, hak, hj, hk, hbefore, hz, hsk, hdk, ha, hpow, hb⟩
    have hh : Private.hash env id = Private.hash env
        { newPrivate with
          signingKey := env.ecPrivKey signKey, behavior := behavior, decryptionKey := env.ecPrivKey k } :=
      hash_congr hsk hdk
    have hfound : searchDecryptionKey env a fuel
        { newPrivate with signingKey := env.ecPrivKey signKey, behavior := behavior } 1 =
        some { newPrivate with
          signingKey := env.ecPrivKey signKey, behavior := behavior, decryptionKey := env.ecPrivKey k } :=
      searchDecryptionKey_of_first hj hk (hh ▸ hz) fun l hl => (passedOver_congr hsk _).mp (hbefore l hl)
    rw [hh] at ha
    obtain ⟨address, pow, sk, dk, b⟩ := id
    dsimp only at hsk hdk ha hpow hb
    subst hsk hdk ha hpow hb
    simp only [newHD, hp, hak, hfound, Bool.not_true, Bool.false_eq_true, if_false, Option.map_some']
    rfl

end BmutilProofs.Identity

import BmutilProofs.Cipher.Broadcast
import BmutilProofs.Reference

/-!
The decrypted form of a broadcast: the encoded message, the varint length of the signature,
and the signature. `decodeFromDecrypted` reads back what `encodeForEncryption` writes, with
what the codecs of the message and of varints promise of their readers: the data and the
signature come back and the rest of the stream is left, every strict prefix fails, and a
length above `SignatureMaxLength` fails whatever follows it. For sound codecs, conversely,
every stream it decodes starts with such a decrypted form.
-/

namespace BmutilProofs.Cipher

open BmutilProofs.Stream BmutilProofs.Model BmutilProofs.Reference

variable {env : Env}

/-- A signature within the bound has a length that a uint64 holds. -/
lemma toNat_ofNat_length {s : Bytes} {m : UInt64} (hs : s.length ≤ m.toNat) :
    (UInt64.ofNat s.length).toNat = s.length := by
  have := m.toNat_lt_size
  rw [toNat_uint64_ofNat, Nat.mod_eq_of_lt (by simp only [UInt64.size] at this; omega)]

lemma not_ofNat_length_gt {s : Bytes} {m : UInt64} (hs : s.length ≤ m.toNat) :
    ¬ UInt64.ofNat s.length > m := by
  rw [gt_iff_lt, UInt64.not_lt, UInt64.le_def, BitVec.le_def]
  show (UInt64.ofNat s.length).toNat ≤ m.toNat
  rw [toNat_ofNat_length hs]
  exact hs

lemma toNat_le_of_not_gt {v m : UInt64} (h : ¬ v > m) : v.toNat ≤ m.toNat := by
  rwa [gt_iff_lt, UInt64.not_lt, UInt64.le_def, BitVec.le_def] at h

/-- A decoded signature is within the bound. -/
lemma decodeFromDecrypted_length_le {r : Bytes} {d : Bitmessage} {s rest : Bytes}
    (h : Broadcast.decodeFromDecrypted env r = .ok (d, s, rest)) : s.length ≤ env.signatureMaxLength.toNat := by
  obtain ⟨⟨d', r₁⟩, -, h⟩ := bind_eq_ok.mp h
  obtain ⟨⟨v, r₂⟩, -, h⟩ := bind_eq_ok.mp h
  dsimp only at h
  split_ifs at h with hv
  · simp at h
  simp only [pure_eq_ok, ok_bind] at h
  obtain ⟨⟨s', r₃⟩, hf, h⟩ := bind_eq_ok.mp h
  obtain ⟨-, rfl, -⟩ : d' = d ∧ s' = s ∧ r₃ = rest := by simpa using h
  rw [length_of_readFull hf]
  exact toNat_le_of_not_gt hv

/-- **What `decodeFromDecrypted` accepts is a decrypted form.** For sound codecs, a stream
it decodes to a message and a signature starts with the message's encoding, the varint of
the signature's length and the signature, and what it leaves is the rest. -/
lemma decodeFromDecrypted_sound (hB : env.broadcast.Sound) (hV : env.varInt.Sound) {r : Bytes}
    {d : Bitmessage} {s rest : Bytes} (h : Broadcast.decodeFromDecrypted env r = .ok (d, s, rest)) :
    r = env.broadcast.write d ++ (env.varInt.write (UInt64.ofNat s.length) ++ s) ++ rest := by
  obtain ⟨⟨d', r₁⟩, h₁, h⟩ := bind_eq_ok.mp h
  obtain ⟨⟨v, r₂⟩, h₂, h⟩ := bind_eq_ok.mp h
  dsimp only at h
  split_ifs at h
  · simp at h
  simp only [pure_eq_ok, ok_bind] at h
  obtain ⟨⟨s', r₃⟩, hf, h⟩ := bind_eq_ok.mp h
  obtain ⟨rfl, rfl, rfl⟩ : d' = d ∧ s' = s ∧ r₃ = rest := by simpa using h
  rw [hB h₁, hV h₂, readFull_sound hf, length_of_readFull hf, ofNat_toNat_uint64]
  simp only [List.append_assoc]

/-- What follows the message: the signature, when its length is within the bound. -/
lemma decodeFromDecrypted_eq (hV : env.varInt.Inverts) {r : Bytes} {d : Bitmessage} {s rest : Bytes}
    (hr : env.broadcast.read r = .ok (d, env.varInt.write (UInt64.ofNat s.length) ++ s ++ rest))
    (hs : s.length ≤ env.signatureMaxLength.toNat) :
    Broadcast.decodeFromDecrypted env r = .ok (d, s, rest) := by
  have hf := readFull_append s rest
  rw [← toNat_ofNat_length hs] at hf
  simp only [Broadcast.decodeFromDecrypted, hr, ok_bind, List.append_assoc, hV.read_write,
    if_neg (not_ofNat_length_gt hs), hf, pure_eq_ok]

/-- A signature length above the bound fails with its message error, whatever follows it. -/
lemma decodeFromDecrypted_oversized {r r₁ r₂ : Bytes} {d : Bitmessage} {v : UInt64}
    (hr : env.broadcast.read r = .ok (d, r₁)) (hv : env.varInt.read r₁ = .ok (v, r₂))
    (hmax : env.signatureMaxLength < v) :
    Broadcast.decodeFromDecrypted env r = .error (.messageError "DecodeFromDecrypted"
      ("signature length exceeds max length - indicates " ++ toString v ++ ", but max length is " ++
        toString env.signatureMaxLength)) := by
  simp [Broadcast.decodeFromDecrypted, hr, hv, hmax]

/-- Every strict prefix of the decrypted form fails: in the message, in the length, or in the
signature. -/
lemma decodeFromDecrypted_prefix_failed (hB : env.broadcast.Inverts) (hV : env.varInt.Inverts)
    (d : Bitmessage) {s : Bytes} (hs : s.length ≤ env.signatureMaxLength.toNat) {n : Nat}
    (hn : n < (env.broadcast.write d ++ (env.varInt.write (UInt64.ofNat s.length) ++ s)).length) :
    Failed (Broadcast.decodeFromDecrypted env
      ((env.broadcast.write d ++ (env.varInt.write (UInt64.ofNat s.length) ++ s)).take n)) := by
  refine hB.read_bind_prefix (fun k hk => ?_) hn
  refine hV.read_bind_prefix (fun j hj => ?_) hk
  simp only [if_neg (not_ofNat_length_gt hs), pure_eq_ok, ok_bind]
  exact failed_bind (readFull_failed (by rw [toNat_ofNat_length hs]; simp; omega))

/-- **The decrypted form reads back.** For a signature within `SignatureMaxLength`, the bytes
`encodeForEncryption` writes into a buffer decode, whatever follows them, to the data and the
signature, and what follows is left unread. Every strict prefix of them fails to decode, a
fixed writer fails exactly when it has room for fewer of them, and every stream whose
signature length is above the bound fails to decode. -/
theorem decodeFromDecrypted_encodeForEncryption (hB : env.broadcast.Inverts) (hV : env.varInt.Inverts)
    (d : Bitmessage) {s : Bytes} (hs : s.length ≤ env.signatureMaxLength.toNat) :
    ∃ bytes, Broadcast.encodeForEncryption env d s Writer.buffer = .ok ⟨bytes, none⟩ ∧
      (∀ rest, Broadcast.decodeFromDecrypted env (bytes ++ rest) = .ok (d, s, rest)) ∧
      (∀ n < bytes.length, Failed (Broadcast.decodeFromDecrypted env (bytes.take n))) ∧
      (∀ buf m, Failed (Broadcast.encodeForEncryption env d s ⟨buf, some m⟩) ↔ m < bytes.length) ∧
      ∀ r r₁ r₂ d' v, env.broadcast.read r = .ok (d', r₁) → env.varInt.read r₁ = .ok (v, r₂) →
        env.signatureMaxLength < v → Failed (Broadcast.decodeFromDecrypted env r) := by
  refine ⟨env.broadcast.write d ++ (env.varInt.write (UInt64.ofNat s.length) ++ s), ?_, fun rest => ?_,
    fun n hn => decodeFromDecrypted_prefix_failed hB hV d hs hn, fun buf m => ?_,
    fun r r₁ r₂ d' v hr hv hmax => ⟨_, decodeFromDecrypted_oversized hr hv hmax⟩⟩
  · rw [Broadcast.encodeForEncryption_eq]
    rfl
  · exact decodeFromDecrypted_eq hV (by rw [List.append_assoc, hB.read_write]) hs
  · rw [Broadcast.encodeForEncryption_eq, Writer.write_fixed_failed]

/-- The reference message with a two-byte signature. -/
theorem decodeFromDecrypted_encodeForEncryption_ref :
    [3, 4].length ≤ refEnv.signatureMaxLength.toNat ∧
      ∃ bytes, Broadcast.encodeForEncryption refEnv refBitmessage [3, 4] Writer.buffer = .ok ⟨bytes, none⟩ ∧
        (∀ rest, Broadcast.decodeFromDecrypted refEnv (bytes ++ rest) = .ok (refBitmessage, [3, 4], rest)) ∧
        (∀ n < bytes.length, Failed (Broadcast.decodeFromDecrypted refEnv (bytes.take n))) ∧
        (∀ buf m, Failed (Broadcast.encodeForEncryption refEnv refBitmessage [3, 4] ⟨buf, some m⟩) ↔
          m < bytes.length) ∧
        ∀ r r₁ r₂ d' v, refEnv.broadcast.read r = .ok (d', r₁) → refEnv.varInt.read r₁ = .ok (v, r₂) →
          refEnv.signatureMaxLength < v → Failed (Broadcast.decodeFromDecrypted refEnv r) :=
  have hs : [3, 4].length ≤ refEnv.signatureMaxLength.toNat := by decide
  ⟨hs, decodeFromDecrypted_encodeForEncryption bitmessageCodec_inverts be64_inverts refBitmessage hs⟩

end BmutilProofs.Cipher

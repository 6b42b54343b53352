import BmutilProofs.Model

/-!
A reference environment: concrete collaborators that meet every law of `Model` and `Stream`,
which shows that the laws can hold together, and on which the functions of the model can be
evaluated on concrete inputs, the hypotheses of the theorems discharged there.

Its codecs are built from a few combinators (unary lengths, pairs, options, bijections).
Its "cryptography" only has the shape of the real one: a public key shows its private key,
a ciphertext starts with the decryption key, and a signature is a prefix of the signer's key
and of the hash.
-/

namespace BmutilProofs.Reference

open BmutilProofs.Stream BmutilProofs.Model

/-! ### Codec combinators -/

section Combinators

variable {α β : Type}

def readUnary : Bytes → Nat → Except LibError (Nat × Bytes)
  | [], _ => .error .unexpectedEOF
  | b :: r, n => if b = 0 then .ok (n, r) else readUnary r (n + 1)

lemma readUnary_ones (k n : Nat) (rest : Bytes) :
    readUnary (List.replicate k 1 ++ 0 :: rest) n = .ok (n + k, rest) := by
  induction k generalizing n with
  | zero => simp [readUnary]
  | succ k ih => simp [List.replicate_succ, readUnary, ih]; omega

lemma readUnary_ones_failed (k n : Nat) : Failed (readUnary (List.replicate k 1) n) := by
  induction k generalizing n with
  | zero => simp [readUnary]
  | succ k ih => simpa [List.replicate_succ, readUnary] using ih (n + 1)

/-- A number in unary, ended by a zero byte. -/
def unaryNat : Codec Nat := ⟨fun n => List.replicate n 1 ++ [0], fun r => readUnary r 0⟩

lemma unaryNat_inverts : unaryNat.Inverts where
  read_write n rest := by simp [unaryNat, readUnary_ones]
  read_prefix n k hk := by
    have hk' : k ≤ n := by simp [unaryNat] at hk; omega
    have hl : k ≤ (List.replicate n (1 : UInt8)).length := by simpa using hk'
    simpa [unaryNat, List.take_append_of_le_length hl, List.take_replicate, Nat.min_eq_left hk']
      using readUnary_ones_failed k 0

/-- Bytes after their length. -/
def bytesCodec : Codec Bytes where
  write b := unaryNat.write b.length ++ b
  read r := do
    let (n, r) ← unaryNat.read r
    readFull n r

lemma bytesCodec_inverts : bytesCodec.Inverts where
  read_write b rest := by
    simp [bytesCodec, List.append_assoc, unaryNat_inverts.read_write, readFull_append]
  read_prefix b _ hn :=
    unaryNat_inverts.read_bind_prefix (fun _ hk => readFull_failed (by simpa using hk)) hn

/-- Two values, one after the other. -/
def pairCodec (ca : Codec α) (cb : Codec β) : Codec (α × β) where
  write p := ca.write p.1 ++ cb.write p.2
  read r := do
    let (a, r) ← ca.read r
    let (b, r) ← cb.read r
    pure ((a, b), r)

lemma pairCodec_inverts {ca : Codec α} {cb : Codec β} (ha : ca.Inverts) (hb : cb.Inverts) :
    (pairCodec ca cb).Inverts where
  read_write p rest := by simp [pairCodec, List.append_assoc, ha.read_write, hb.read_write]
  read_prefix p _ hn :=
    ha.read_bind_prefix (fun k hk => failed_bind (hb.read_prefix p.2 k hk)) hn

/-- A codec carried along a bijection. -/
def mapCodec (c : Codec α) (f : α → β) (g : β → α) : Codec β where
  write b := c.write (g b)
  read r := (c.read r).map fun p => (f p.1, p.2)

lemma mapCodec_inverts {c : Codec α} {f : α → β} {g : β → α} (h : c.Inverts)
    (hfg : ∀ b, f (g b) = b) : (mapCodec c f g).Inverts where
  read_write b rest := by simp [mapCodec, h.read_write, Except.map, hfg]
  read_prefix b n hn := by
    obtain ⟨e, he⟩ := h.read_prefix (g b) n hn
    exact ⟨e, by simp [mapCodec, he, Except.map]⟩

/-- A tag byte, then the value if there is one. -/
def optionCodec (c : Codec α) : Codec (Option α) where
  write
    | none => [0]
    | some a => 1 :: c.write a
  read
    | [] => .error .unexpectedEOF
    | t :: r => if t = 0 then .ok (none, r) else (c.read r).map fun p => (some p.1, p.2)

lemma optionCodec_inverts {c : Codec α} (h : c.Inverts) : (optionCodec c).Inverts where
  read_write a rest := by cases a <;> simp [optionCodec, h.read_write, Except.map]
  read_prefix a n hn := by
    rcases n with _ | n
    · exact ⟨.unexpectedEOF, by simp [optionCodec]⟩
    · cases a with
      | none => simp [optionCodec] at hn
      | some a =>
        obtain ⟨e, he⟩ := h.read_prefix a n (by simpa [optionCodec] using hn)
        exact ⟨e, by simp [optionCodec, he, Except.map]⟩

end Combinators

/-! ### The reference collaborators -/

def uint32Codec : Codec UInt32 := mapCodec be64 UInt64.toUInt32 UInt32.toUInt64

lemma uint32Codec_inverts : uint32Codec.Inverts :=
  mapCodec_inverts be64_inverts fun v => UInt32.toNat.inj (by simp [Nat.mod_eq_of_lt v.toNat_lt_size])

def powCodec : Codec PowData :=
  mapCodec (pairCodec be64 be64) (fun p => ⟨p.1, p.2⟩) fun d => (d.nonceTrialsPerByte, d.extraBytes)

def bitmessageCodec : Codec Bitmessage :=
  mapCodec (pairCodec bytesCodec (pairCodec bytesCodec (pairCodec powCodec
      (pairCodec uint32Codec (pairCodec (optionCodec bytesCodec) bytesCodec)))))
    (fun p => ⟨p.1, p.2.1, p.2.2.1, p.2.2.2.1, p.2.2.2.2.1, p.2.2.2.2.2⟩)
    fun m => (m.signingKey, m.encryptionKey, m.pow, m.behavior, m.destination, m.body)

lemma bitmessageCodec_inverts : bitmessageCodec.Inverts :=
  mapCodec_inverts (pairCodec_inverts bytesCodec_inverts (pairCodec_inverts bytesCodec_inverts
    (pairCodec_inverts (mapCodec_inverts (pairCodec_inverts be64_inverts be64_inverts) fun _ => rfl)
      (pairCodec_inverts uint32Codec_inverts
        (pairCodec_inverts (optionCodec_inverts bytesCodec_inverts) bytesCodec_inverts))))) fun _ => rfl

def addressCodec : Codec Address :=
  mapCodec (pairCodec be64 (pairCodec be64 bytesCodec)) (fun p => ⟨p.1, p.2.1, p.2.2⟩)
    fun a => (a.version, a.stream, a.ripe)

lemma addressCodec_inverts : addressCodec.Inverts :=
  mapCodec_inverts (pairCodec_inverts be64_inverts (pairCodec_inverts be64_inverts bytesCodec_inverts))
    fun _ => rfl

def signatureCodec : Codec Signature :=
  mapCodec (pairCodec bytesCodec bytesCodec) (fun p => ⟨p.1, p.2⟩) fun s => (s.r, s.s)

lemma signatureCodec_inverts : signatureCodec.Inverts :=
  mapCodec_inverts (pairCodec_inverts bytesCodec_inverts bytesCodec_inverts) fun _ => rfl

/-- The reference collaborators. -/
def refEnv : Env where
  pubKey k := ⟨k.d, []⟩
  serializeUncompressed p := 4 :: p.x ++ p.y
  privKeyFromBytes b := ⟨b⟩
  sign k h := .ok ⟨k.d.take 8, h.take 8⟩
  serialize := signatureCodec.write
  parseSignature b := (signatureCodec.read b).map Prod.fst
  verify sig h pk := sig.r == pk.x.take 8 && sig.s == h.take 8
  encrypt pk p := .ok (pk.x ++ p)
  decrypt k c := if c.take k.d.length = k.d then .ok (c.drop k.d.length) else .error .invalidMAC
  sha1 := id
  sha256 := id
  sha512 := id
  ripemd160 b := 0 :: b.take 19
  child k i := .ok ⟨k.key ++ [i.toUInt8], k.chainCode, k.isPrivate⟩
  ecPrivKey k := ⟨k.key⟩
  varInt := be64
  addressString := addressCodec.write
  decodeAddress b := (addressCodec.read b).map Prod.fst
  encodeWIF k := k.d
  decodeWIF b := .ok ⟨b⟩
  tag a := a.ripe
  v4BroadcastDecryptionKey a := ⟨4 :: a.ripe⟩
  v5BroadcastDecryptionKey a := ⟨5 :: a.ripe⟩
  defaultPow := ⟨1000, 1000⟩
  headerForSigning _ _ version stream := be64.write version ++ be64.write stream
  toBtcec b := .ok ⟨b, []⟩
  signatureMaxLength := 72
  broadcast := bitmessageCodec

/-- A message with no destination, for evaluating the broadcast functions in the reference
environment. -/
def refBitmessage : Bitmessage := ⟨[1], [2], ⟨1000, 1000⟩, 1000, none, [7]⟩

lemma refEnv_eciesInverts : refEnv.EciesInverts := by
  rintro k p c h
  cases h
  simp [refEnv]

lemma refEnv_signaturesVerify : refEnv.SignaturesVerify := by
  rintro k h sig hs
  cases hs
  have hr := signatureCodec_inverts.read_write ⟨k.d.take 8, h.take 8⟩ []
  rw [List.append_nil] at hr
  refine ⟨?_, ⟨k.d.take 8, h.take 8⟩, by simp [refEnv, hr, Except.map], by simp [refEnv]⟩
  have h1 : (k.d.take 8).length ≤ 8 := by simp
  have h2 : (h.take 8).length ≤ 8 := by simp
  simp only [refEnv, signatureCodec, mapCodec, pairCodec, bytesCodec, unaryNat, List.length_append,
    List.length_replicate, List.length_singleton]
  show _ ≤ 72
  omega

lemma refEnv_addressStringInverts : refEnv.AddressStringInverts := fun a => by
  have h := addressCodec_inverts.read_write a []
  rw [List.append_nil] at h
  simp [refEnv, h, Except.map]

lemma refEnv_wifInverts : refEnv.WifInverts := fun _ => rfl

/-- A codec that writes nothing and reads `a` without reading a byte. It is sound: what it
reads, it wrote. -/
def constCodec {α : Type} (a : α) : Codec α := ⟨fun _ => [], fun r => .ok (a, r)⟩

lemma constCodec_sound {α : Type} (a : α) : (constCodec a).Sound := by
  intro r a' rest h
  cases h
  rfl

/-- The reference collaborators with a sound message codec, which reads every message as
`refBitmessage`. -/
def soundEnv : Env := { refEnv with broadcast := constCodec refBitmessage }

end BmutilProofs.Reference

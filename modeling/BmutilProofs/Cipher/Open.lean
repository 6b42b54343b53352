import BmutilProofs.Cipher.Decrypted

/-!
Opening a broadcast: which objects `NewTaglessBroadcast` and `NewTaggedBroadcast` accept, and
with which error they turn the others down.

`verify` has one inversion lemma, `verify_cases`, that lists everything it can do; what it
accepts and the errors it returns follow from it, and those of `newBroadcast` from them.
Opening reads an object only through its ciphertext and its signing form, so it does not
depend on the nonce; and for sound codecs, an object it accepts decrypts to the sender's
format of the broadcast it returns.
-/

namespace BmutilProofs.Cipher

open BmutilProofs.Stream BmutilProofs.Model BmutilProofs.Identity BmutilProofs.Reference

variable (env : Env)

/-- The signature parses and verifies under the key against the SHA-256, or else the SHA-1, of
the object's signing form followed by the encoded message. -/
def SignatureVerifies (msg : ObjBroadcast) (d : Bitmessage) (s : Bytes) (signKey : PublicKey) : Prop :=
  ∃ sig, env.parseSignature s = .ok sig ∧
    (env.verify sig (env.sha256 (msg.bytesForSigning env ++ env.broadcast.write d)) signKey = true ∨
      env.verify sig (env.sha1 (msg.bytesForSigning env ++ env.broadcast.write d)) signKey = true)

/-- The keys of the message are valid points, the signing key being `signKey`, and the public
identity `NewPublic` makes of them on the version and stream of the address has the address's
string. -/
def KeysMatch (address : Address) (d : Bitmessage) (signKey : PublicKey) : Prop :=
  ∃ encKey id, env.toBtcec d.signingKey = .ok signKey ∧ env.toBtcec d.encryptionKey = .ok encKey ∧
    newPublic env signKey encKey d.behavior d.pow address.version address.stream = .ok id ∧
    env.addressString id.address = env.addressString address

/-- What `verify` accepts: the keys match the address and the signature verifies. -/
def Authentic (msg : ObjBroadcast) (address : Address) (d : Bitmessage) (s : Bytes) : Prop :=
  ∃ signKey, KeysMatch env address d signKey ∧ SignatureVerifies env msg d s signKey

/-- The object decrypts under the key to a plaintext that decodes to the message and the
signature, whatever bytes follow the signature. -/
def Decrypts (msg : ObjBroadcast) (key : PrivateKey) (d : Bitmessage) (s : Bytes) : Prop :=
  ∃ p rest, env.decrypt key msg.encrypted = .ok p ∧ Broadcast.decodeFromDecrypted env p = .ok (d, s, rest)

variable {env}

/-! ### `verify` -/

/-- Keys that make another address give the mismatch error. -/
lemma verify_addressMismatch {b : Broadcast} {address : Address} {signKey encKey : PublicKey} {id : Public}
    (h1 : env.toBtcec b.data.signingKey = .ok signKey) (h2 : env.toBtcec b.data.encryptionKey = .ok encKey)
    (h3 : newPublic env signKey encKey b.data.behavior b.data.pow address.version address.stream = .ok id)
    (hne : env.addressString id.address ≠ env.addressString address) :
    b.verify env address =
      .error (.lib (addressMismatchError (env.addressString address) (env.addressString id.address))) := by
  simp [Broadcast.verify, h1, h2, h3, Ne.symm hne]

lemma verify_of_authentic {b : Broadcast} {address : Address}
    (h : Authentic env b.msg address b.data b.signature) : b.verify env address = .ok () := by
  obtain ⟨signKey, ⟨encKey, id, h1, h2, h3, h4⟩, sig, hs, hv⟩ := h
  simp only [Broadcast.verify, h1, h2, h3, h4, hs, mapError_ok, ok_bind, ne_eq, not_true_eq_false,
    if_false, pure_eq_ok, Broadcast.encodeForSigning_buffer]
  rcases hv with hv | hv <;> simp [hv]

/-- Everything `verify` can do: fail on one of the keys, fail in `NewPublic`, find another
address, turn the signature down, or accept. -/
lemma verify_cases (b : Broadcast) (address : Address) :
    (∃ e, env.toBtcec b.data.signingKey = .error e ∧ b.verify env address = .error (.lib e)) ∨
    (∃ signKey e, env.toBtcec b.data.signingKey = .ok signKey ∧
      env.toBtcec b.data.encryptionKey = .error e ∧ b.verify env address = .error (.lib e)) ∨
    (∃ signKey encKey e, env.toBtcec b.data.signingKey = .ok signKey ∧
      env.toBtcec b.data.encryptionKey = .ok encKey ∧
      newPublic env signKey encKey b.data.behavior b.data.pow address.version address.stream = .error e ∧
      b.verify env address = .error (.lib e)) ∨
    (∃ signKey encKey id, env.toBtcec b.data.signingKey = .ok signKey ∧
      env.toBtcec b.data.encryptionKey = .ok encKey ∧
      newPublic env signKey encKey b.data.behavior b.data.pow address.version address.stream = .ok id ∧
      env.addressString id.address ≠ env.addressString address ∧
      b.verify env address =
        .error (.lib (addressMismatchError (env.addressString address) (env.addressString id.address)))) ∨
    (∃ signKey, KeysMatch env address b.data signKey ∧
      ¬ SignatureVerifies env b.msg b.data b.signature signKey ∧
      b.verify env address = .error .invalidSignature) ∨
    (Authentic env b.msg address b.data b.signature ∧ b.verify env address = .ok ()) := by
  rcases hsk : env.toBtcec b.data.signingKey with e | signKey
  · exact .inl ⟨e, rfl, by simp [Broadcast.verify, hsk]⟩
  rcases hek : env.toBtcec b.data.encryptionKey with e | encKey
  · exact .inr <| .inl ⟨signKey, e, rfl, rfl, by simp [Broadcast.verify, hsk, hek]⟩
  rcases hnp : newPublic env signKey encKey b.data.behavior b.data.pow address.version address.stream
    with e | id
  · exact .inr <| .inr <| .inl ⟨signKey, encKey, e, rfl, rfl, hnp, by simp [Broadcast.verify, hsk, hek, hnp]⟩
  by_cases hadr : env.addressString id.address = env.addressString address
  swap
  · exact .inr <| .inr <| .inr <| .inl ⟨signKey, encKey, id, rfl, rfl, hnp, hadr,
      verify_addressMismatch hsk hek hnp hadr⟩
  have hkeys : KeysMatch env address b.data signKey := ⟨encKey, id, hsk, hek, hnp, hadr⟩
  by_cases hsv : SignatureVerifies env b.msg b.data b.signature signKey
  · exact .inr <| .inr <| .inr <| .inr <| .inr ⟨⟨signKey, hkeys, hsv⟩, verify_of_authentic ⟨signKey, hkeys, hsv⟩⟩
  refine .inr <| .inr <| .inr <| .inr <| .inl ⟨signKey, hkeys, hsv, ?_⟩
  simp only [Broadcast.verify, hsk, hek, hnp, hadr, mapError_ok, ok_bind, ne_eq, not_true_eq_false,
    if_false, pure_eq_ok, Broadcast.encodeForSigning_buffer]
  rcases hp : env.parseSignature b.signature with e | sig
  · rfl
  · have hv := fun h => hsv ⟨sig, hp, h⟩
    simp only [imp_false, not_or, Bool.not_eq_true] at hv
    simp [hv]

lemma verify_eq_ok_iff {b : Broadcast} {address : Address} :
    b.verify env address = .ok () ↔ Authentic env b.msg address b.data b.signature := by
  refine ⟨fun h => ?_, verify_of_authentic⟩
  rcases @verify_cases env b address with ⟨_, _, h'⟩ | ⟨_, _, _, _, h'⟩ | ⟨_, _, _, _, _, _, h'⟩ |
    ⟨_, _, _, _, _, _, _, h'⟩ | ⟨_, _, _, h'⟩ | ⟨ha, -⟩
  all_goals first | exact ha | (rw [h] at h'; cases h')

/-- `verify` never says `ErrInvalidIdentity`. -/
lemma verify_ne_invalidIdentity (b : Broadcast) (address : Address) :
    b.verify env address ≠ .error .invalidIdentity := by
  rcases @verify_cases env b address with ⟨_, _, h⟩ | ⟨_, _, _, _, h⟩ | ⟨_, _, _, _, _, _, h⟩ |
    ⟨_, _, _, _, _, _, _, h⟩ | ⟨_, _, _, h⟩ | ⟨_, h⟩ <;> simp [h]

/-- `verify` says `ErrInvalidSignature` exactly when the keys match the address and the
signature does not verify. -/
lemma verify_eq_invalidSignature_iff {b : Broadcast} {address : Address} :
    b.verify env address = .error .invalidSignature ↔
      ∃ signKey, KeysMatch env address b.data signKey ∧ ¬ SignatureVerifies env b.msg b.data b.signature signKey := by
  constructor
  · intro h
    rcases @verify_cases env b address with ⟨_, _, h'⟩ | ⟨_, _, _, _, h'⟩ | ⟨_, _, _, _, _, _, h'⟩ |
      ⟨_, _, _, _, _, _, _, h'⟩ | ⟨signKey, hk, hs, -⟩ | ⟨_, h'⟩
    all_goals first | exact ⟨signKey, hk, hs⟩ | (rw [h] at h'; cases h')
  · rintro ⟨signKey, ⟨encKey, id, h1, h2, h3, h4⟩, hsv⟩
    rcases @verify_cases env b address with ⟨_, he, -⟩ | ⟨_, _, _, he, -⟩ | ⟨_, _, _, hs', he', hn, -⟩ |
      ⟨_, _, _, hs', he', hn, hne, -⟩ | ⟨_, _, _, h⟩ | ⟨⟨_, ⟨_, _, hs', -⟩, hsv'⟩, -⟩
    · simp [h1] at he
    · simp [h2] at he
    · simp_all
    · simp_all
    · exact h
    · rw [h1, Except.ok.injEq] at hs'
      exact absurd (hs' ▸ hsv') hsv

/-! ### `newBroadcast` -/

/-- Once the object decrypts and decodes, `newBroadcast` returns what `verify` says. -/
lemma newBroadcast_of_decrypts {msg : ObjBroadcast} {key : PrivateKey} {address : Address}
    {d : Bitmessage} {s : Bytes} (h : Decrypts env msg key d s) :
    newBroadcast env msg key address =
      ((⟨msg, d, s⟩ : Broadcast).verify env address >>= fun _ => pure ⟨msg, d, s⟩) := by
  obtain ⟨p, rest, hd, hp⟩ := h
  simp [newBroadcast, hd, hp]

/-- Everything `newBroadcast` can do: fail to decrypt, fail to decode, or return what `verify`
says. -/
lemma newBroadcast_cases (msg : ObjBroadcast) (key : PrivateKey) (address : Address) :
    (∃ e, env.decrypt key msg.encrypted = .error e ∧
      newBroadcast env msg key address = .error (if e = .invalidMAC then .invalidIdentity else .lib e)) ∨
    (∃ p e, env.decrypt key msg.encrypted = .ok p ∧ Broadcast.decodeFromDecrypted env p = .error e ∧
      newBroadcast env msg key address = .error (.lib e)) ∨
    (∃ d s, Decrypts env msg key d s ∧ newBroadcast env msg key address =
      ((⟨msg, d, s⟩ : Broadcast).verify env address >>= fun _ => pure ⟨msg, d, s⟩)) := by
  rcases hd : env.decrypt key msg.encrypted with e | p
  · exact .inl ⟨e, rfl, by simp [newBroadcast, hd]⟩
  rcases hp : Broadcast.decodeFromDecrypted env p with e | ⟨d, s, rest⟩
  · exact .inr <| .inl ⟨p, e, rfl, hp, by simp [newBroadcast, hd, hp]⟩
  · exact .inr <| .inr ⟨d, s, ⟨p, rest, hd, hp⟩, newBroadcast_of_decrypts ⟨p, rest, hd, hp⟩⟩

lemma newBroadcast_eq_ok_iff {msg : ObjBroadcast} {key : PrivateKey} {address : Address} {b : Broadcast} :
    newBroadcast env msg key address = .ok b ↔
      ∃ d s, Decrypts env msg key d s ∧ s.length ≤ env.signatureMaxLength.toNat ∧
        Authentic env msg address d s ∧ b = ⟨msg, d, s⟩ := by
  constructor
  · intro h
    rcases @newBroadcast_cases env msg key address with ⟨_, _, h'⟩ | ⟨_, _, _, _, h'⟩ | ⟨d, s, hd, h'⟩
    · rw [h] at h'; cases h'
    · rw [h] at h'; cases h'
    · rw [h, eq_comm, bind_eq_ok] at h'
      obtain ⟨_, hv, hb⟩ := h'
      obtain ⟨p, rest, hdec, hp⟩ := hd
      exact ⟨d, s, ⟨p, rest, hdec, hp⟩, decodeFromDecrypted_length_le hp, verify_eq_ok_iff.mp hv,
        (Except.ok.inj hb).symm⟩
  · rintro ⟨d, s, hd, -, ha, rfl⟩
    rw [newBroadcast_of_decrypts hd, verify_of_authentic ha]
    rfl

/-- `newBroadcast` says `ErrInvalidIdentity` exactly when the decryption fails on its MAC. -/
lemma newBroadcast_eq_invalidIdentity_iff {msg : ObjBroadcast} {key : PrivateKey} {address : Address} :
    newBroadcast env msg key address = .error .invalidIdentity ↔
      env.decrypt key msg.encrypted = .error .invalidMAC := by
  constructor
  · intro h
    rcases @newBroadcast_cases env msg key address with ⟨e, hd, h'⟩ | ⟨_, _, _, _, h'⟩ | ⟨_, _, -, h'⟩
    · rw [h] at h'
      by_cases he : e = .invalidMAC
      · rw [hd, he]
      · simp [he] at h'
    · rw [h] at h'; cases h'
    · rw [h, eq_comm, bind_eq_error] at h'
      rcases h' with hv | ⟨_, -, hp⟩
      · exact absurd hv (verify_ne_invalidIdentity _ _)
      · simp at hp
  · intro h
    simp [newBroadcast, h]

/-- `newBroadcast` says `ErrInvalidSignature` exactly when the object decrypts and decodes, the
keys match the address and the signature does not verify. -/
lemma newBroadcast_eq_invalidSignature_iff {msg : ObjBroadcast} {key : PrivateKey} {address : Address} :
    newBroadcast env msg key address = .error .invalidSignature ↔
      ∃ d s, Decrypts env msg key d s ∧
        ∃ signKey, KeysMatch env address d signKey ∧ ¬ SignatureVerifies env msg d s signKey := by
  constructor
  · intro h
    rcases @newBroadcast_cases env msg key address with ⟨_, -, h'⟩ | ⟨_, _, _, _, h'⟩ | ⟨d, s, hd, h'⟩
    · rw [h] at h'
      split_ifs at h' <;> cases h'
    · rw [h] at h'; cases h'
    · rw [h, eq_comm, bind_eq_error] at h'
      rcases h' with hv | ⟨_, -, hp⟩
      · exact ⟨d, s, hd, verify_eq_invalidSignature_iff.mp hv⟩
      · simp at hp
  · rintro ⟨d, s, hd, hk⟩
    rw [newBroadcast_of_decrypts hd, verify_eq_invalidSignature_iff.mpr hk]
    rfl

/-- Once the object decrypts and decodes, keys that make another address give the mismatch
error. -/
lemma newBroadcast_addressMismatch {msg : ObjBroadcast} {key : PrivateKey} {address : Address}
    {d : Bitmessage} {s : Bytes} {signKey encKey : PublicKey} {id : Public} (hd : Decrypts env msg key d s)
    (h1 : env.toBtcec d.signingKey = .ok signKey) (h2 : env.toBtcec d.encryptionKey = .ok encKey)
    (h3 : newPublic env signKey encKey d.behavior d.pow address.version address.stream = .ok id)
    (hne : env.addressString id.address ≠ env.addressString address) :
    newBroadcast env msg key address =
      .error (.lib (addressMismatchError (env.addressString address) (env.addressString id.address))) := by
  rw [newBroadcast_of_decrypts hd, verify_addressMismatch (b := ⟨msg, d, s⟩) h1 h2 h3 hne]
  rfl

/-! ### `NewTaglessBroadcast` and `NewTaggedBroadcast` -/

lemma newTaggedBroadcast_of_tag {msg : TaggedBroadcast} {address : Address} (ht : msg.tag = env.tag address) :
    newTaggedBroadcast env msg address =
      newBroadcast env (.tagged msg) (env.v5BroadcastDecryptionKey address) address := by
  simp [newTaggedBroadcast, ht]

lemma newTaggedBroadcast_of_tag_ne {msg : TaggedBroadcast} {address : Address} (ht : msg.tag ≠ env.tag address) :
    newTaggedBroadcast env msg address = .error .invalidIdentity := by
  simp [newTaggedBroadcast, ht]

/-- **Opening accepts exactly the authentic broadcasts.** `NewTaggedBroadcast` returns a
broadcast exactly when the tag is that of the address, the object decrypts under the
version-5 broadcast key of the address to a message and a signature within
`SignatureMaxLength` (whatever follows the signature), and the message is authentic for the
address: its keys make the address, and the signature verifies against the SHA-256 or the
SHA-1 of the object's signing form and the message. The broadcast it returns holds the
object, the message and the signature. `NewTaglessBroadcast` does the same with no tag and
the version-4 key. -/
theorem newBroadcast_ok_iff_authentic (address : Address) (b : Broadcast) :
    (∀ msg : TaggedBroadcast, newTaggedBroadcast env msg address = .ok b ↔
      msg.tag = env.tag address ∧
        ∃ d s, Decrypts env (.tagged msg) (env.v5BroadcastDecryptionKey address) d s ∧
          s.length ≤ env.signatureMaxLength.toNat ∧ Authentic env (.tagged msg) address d s ∧
          b = ⟨.tagged msg, d, s⟩) ∧
    ∀ msg : TaglessBroadcast, newTaglessBroadcast env msg address = .ok b ↔
      ∃ d s, Decrypts env (.tagless msg) (env.v4BroadcastDecryptionKey address) d s ∧
        s.length ≤ env.signatureMaxLength.toNat ∧ Authentic env (.tagless msg) address d s ∧
        b = ⟨.tagless msg, d, s⟩ := by
  refine ⟨fun msg => ?_, fun msg => newBroadcast_eq_ok_iff⟩
  by_cases ht : msg.tag = env.tag address
  · rw [newTaggedBroadcast_of_tag ht, newBroadcast_eq_ok_iff]
    exact (and_iff_right ht).symm
  · simp [newTaggedBroadcast_of_tag_ne ht, ht]

/-- **How opening fails.** `NewTaggedBroadcast` fails with `ErrInvalidIdentity` exactly when
the tag is not that of the address or the decryption fails on its MAC. It fails with
`ErrInvalidSignature` exactly when the tag matches, the object decrypts and decodes, the keys
of the message match the address and the signature does not verify. When the keys make
another address than the one used to decrypt, it fails with the address mismatch error,
which is neither of the two. `NewTaglessBroadcast` fails the same way, with no tag. -/
theorem newBroadcast_error_classes (address : Address) :
    (∀ msg : TaggedBroadcast,
      (newTaggedBroadcast env msg address = .error .invalidIdentity ↔
        msg.tag ≠ env.tag address ∨
          env.decrypt (env.v5BroadcastDecryptionKey address) msg.encrypted = .error .invalidMAC) ∧
      (newTaggedBroadcast env msg address = .error .invalidSignature ↔
        msg.tag = env.tag address ∧
          ∃ d s, Decrypts env (.tagged msg) (env.v5BroadcastDecryptionKey address) d s ∧
            ∃ signKey, KeysMatch env address d signKey ∧ ¬ SignatureVerifies env (.tagged msg) d s signKey) ∧
      ∀ d s signKey encKey id, msg.tag = env.tag address →
        Decrypts env (.tagged msg) (env.v5BroadcastDecryptionKey address) d s →
        env.toBtcec d.signingKey = .ok signKey → env.toBtcec d.encryptionKey = .ok encKey →
        newPublic env signKey encKey d.behavior d.pow address.version address.stream = .ok id →
        env.addressString id.address ≠ env.addressString address →
        newTaggedBroadcast env msg address =
          .error (.lib (addressMismatchError (env.addressString address) (env.addressString id.address)))) ∧
    ∀ msg : TaglessBroadcast,
      (newTaglessBroadcast env msg address = .error .invalidIdentity ↔
        env.decrypt (env.v4BroadcastDecryptionKey address) msg.encrypted = .error .invalidMAC) ∧
      (newTaglessBroadcast env msg address = .error .invalidSignature ↔
        ∃ d s, Decrypts env (.tagless msg) (env.v4BroadcastDecryptionKey address) d s ∧
          ∃ signKey, KeysMatch env address d signKey ∧ ¬ SignatureVerifies env (.tagless msg) d s signKey) ∧
      ∀ d s signKey encKey id, Decrypts env (.tagless msg) (env.v4BroadcastDecryptionKey address) d s →
        env.toBtcec d.signingKey = .ok signKey → env.toBtcec d.encryptionKey = .ok encKey →
        newPublic env signKey encKey d.behavior d.pow address.version address.stream = .ok id →
        env.addressString id.address ≠ env.addressString address →
        newTaglessBroadcast env msg address =
          .error (.lib (addressMismatchError (env.addressString address) (env.addressString id.address))) := by
  refine ⟨fun msg => ⟨?_, ?_, fun d s signKey encKey id ht hd => ?_⟩, fun msg =>
    ⟨newBroadcast_eq_invalidIdentity_iff, newBroadcast_eq_invalidSignature_iff,
      fun d s signKey encKey id hd => newBroadcast_addressMismatch hd⟩⟩
  · by_cases ht : msg.tag = env.tag address
    · rw [newTaggedBroadcast_of_tag ht, newBroadcast_eq_invalidIdentity_iff]
      simp [ht, ObjBroadcast.encrypted]
    · simp [newTaggedBroadcast_of_tag_ne ht, ht]
  · by_cases ht : msg.tag = env.tag address
    · rw [newTaggedBroadcast_of_tag ht, newBroadcast_eq_invalidSignature_iff]
      exact (and_iff_right ht).symm
    · simp [newTaggedBroadcast_of_tag_ne ht, ht]
  · rw [newTaggedBroadcast_of_tag ht]
    exact newBroadcast_addressMismatch hd

/-- An address whose ripe is not the hash of the keys of `refBitmessage`. -/
def spoofAddress : Address := ⟨4, 1, [9]⟩

/-- `refBitmessage` with an empty signature, encrypted in the reference environment under the
version-5 broadcast key of `spoofAddress`, and tagged for it. -/
def spoofedBroadcast : TaggedBroadcast :=
  Obj.newTaggedBroadcast 0 0 1 [9] ([5, 9] ++ refEnv.broadcast.write refBitmessage ++ refEnv.varInt.write 0)

/-- Opening `spoofedBroadcast` with `spoofAddress` finds the address of the keys of
`refBitmessage` instead. -/
theorem newBroadcast_error_classes_spoofed :
    newTaggedBroadcast refEnv spoofedBroadcast spoofAddress = .error (.lib (addressMismatchError
      (refEnv.addressString spoofAddress) (refEnv.addressString ⟨4, 1, [0, 4, 1, 4, 2]⟩))) :=
  ((@newBroadcast_error_classes refEnv spoofAddress).1 spoofedBroadcast).2.2 refBitmessage [] ⟨[1], []⟩
    ⟨[2], []⟩ ⟨⟨4, 1, [0, 4, 1, 4, 2]⟩, ⟨1000, 1000⟩, ⟨[1], []⟩, ⟨[2], []⟩, 1000⟩ rfl ⟨_, [], rfl, rfl⟩ rfl rfl
    rfl (by decide)

/-- A tagged broadcast that decrypts and decodes under the address, and whose keys make
another address, is not turned down with `ErrInvalidIdentity`. -/
theorem newTaggedBroadcast_spoofed_not_invalidIdentity :
    spoofedBroadcast.tag = refEnv.tag spoofAddress ∧
      Decrypts refEnv (.tagged spoofedBroadcast) (refEnv.v5BroadcastDecryptionKey spoofAddress) refBitmessage [] ∧
      (∃ signKey encKey id, refEnv.toBtcec refBitmessage.signingKey = .ok signKey ∧
        refEnv.toBtcec refBitmessage.encryptionKey = .ok encKey ∧
        newPublic refEnv signKey encKey refBitmessage.behavior refBitmessage.pow spoofAddress.version
          spoofAddress.stream = .ok id ∧
        refEnv.addressString id.address ≠ refEnv.addressString spoofAddress) ∧
      newTaggedBroadcast refEnv spoofedBroadcast spoofAddress ≠ .error .invalidIdentity :=
  ⟨rfl, ⟨_, [], rfl, rfl⟩, ⟨_, _, _, rfl, rfl, rfl, by decide⟩, by
    rw [show newTaggedBroadcast refEnv spoofedBroadcast spoofAddress = .error (.lib _) from rfl]
    simp⟩

/-! ### Proof of work after signing

`verify` reads the object only through its signing form, and `newBroadcast` reads it only
through that and its ciphertext; the nonce is in neither. -/

lemma verify_congr {b b' : Broadcast} (hs : b.msg.bytesForSigning env = b'.msg.bytesForSigning env)
    (hd : b.data = b'.data) (hsig : b.signature = b'.signature) (address : Address) :
    b.verify env address = b'.verify env address := by
  simp only [Broadcast.verify, Broadcast.encodeForSigning, hs, hd, hsig]

/-- Two objects with one ciphertext and one signing form open alike, to broadcasts that hold
each its own object. -/
lemma newBroadcast_congr (msg msg' : ObjBroadcast) (he : msg'.encrypted = msg.encrypted)
    (hs : msg'.bytesForSigning env = msg.bytesForSigning env) (key : PrivateKey) (address : Address) :
    newBroadcast env msg' key address =
      (newBroadcast env msg key address).map fun b => { b with msg := msg' } := by
  unfold newBroadcast
  rw [he]
  rcases env.decrypt key msg.encrypted with e | p
  · rfl
  simp only [mapError_ok, ok_bind]
  rcases Broadcast.decodeFromDecrypted env p with e | ⟨d, s, r⟩
  · rfl
  have hv : (⟨msg', d, s⟩ : Broadcast).verify env address = (⟨msg, d, s⟩ : Broadcast).verify env address :=
    verify_congr (by exact hs) (by rfl) (by rfl) address
  simp only [mapError_ok, ok_bind, hv]
  rcases (⟨msg, d, s⟩ : Broadcast).verify env address with e | ⟨⟩ <;> rfl

/-- **Opening does not depend on the nonce.** With any other nonce in its header, an object
opens with `NewTaggedBroadcast`, and with `NewTaglessBroadcast`, to the same outcome: the same
error, or a broadcast that differs only by holding the object with the new nonce. So the
proof of work can be done after the object is signed, by anyone, without changing what it
opens to. -/
theorem open_nonce_independent (address : Address) (nonce : UInt64) :
    (∀ m : TaggedBroadcast,
      newTaggedBroadcast env { m with header := { m.header with nonce := nonce } } address =
        (newTaggedBroadcast env m address).map fun b =>
          { b with msg := .tagged { m with header := { m.header with nonce := nonce } } }) ∧
    ∀ m : TaglessBroadcast,
      newTaglessBroadcast env { m with header := { m.header with nonce := nonce } } address =
        (newTaglessBroadcast env m address).map fun b =>
          { b with msg := .tagless { m with header := { m.header with nonce := nonce } } } := by
  refine ⟨fun m => ?_, fun m => newBroadcast_congr _ _ (by rfl) (by rfl) _ _⟩
  unfold newTaggedBroadcast
  dsimp only
  split_ifs
  · rfl
  · exact newBroadcast_congr _ _ (by rfl) (by rfl) _ _

/-! ### What an accepted object carries -/

/-- For sound codecs, an object `newBroadcast` accepts decrypts to the decrypted form of the
broadcast it returns, followed by bytes it does not read. -/
lemma newBroadcast_sound (hB : env.broadcast.Sound) (hV : env.varInt.Sound) {msg : ObjBroadcast}
    {key : PrivateKey} {address : Address} {b : Broadcast} (h : newBroadcast env msg key address = .ok b) :
    ∃ bytes rest, Broadcast.encodeForEncryption env b.data b.signature Writer.buffer = .ok ⟨bytes, none⟩ ∧
      env.decrypt key msg.encrypted = .ok (bytes ++ rest) := by
  obtain ⟨d, s, ⟨p, rest, hdec, hp⟩, -, -, rfl⟩ := newBroadcast_eq_ok_iff.mp h
  exact ⟨_, rest, by rw [Broadcast.encodeForEncryption_eq]; rfl,
    by rw [hdec, decodeFromDecrypted_sound hB hV hp]; rfl⟩

/-- **An accepted object was sealed in the sender's format.** For codecs whose readers accept
only what their writers write, whenever `NewTaggedBroadcast` or `NewTaglessBroadcast` returns
a broadcast, its object decrypts under the broadcast key of the address to exactly the bytes
`encodeForEncryption` writes for the broadcast's message and signature, followed by bytes the
opener never reads. -/
theorem newBroadcast_plaintext_sound (hB : env.broadcast.Sound) (hV : env.varInt.Sound) (address : Address)
    (b : Broadcast) :
    (∀ msg : TaggedBroadcast, newTaggedBroadcast env msg address = .ok b →
      ∃ bytes rest, Broadcast.encodeForEncryption env b.data b.signature Writer.buffer = .ok ⟨bytes, none⟩ ∧
        env.decrypt (env.v5BroadcastDecryptionKey address) msg.encrypted = .ok (bytes ++ rest)) ∧
    ∀ msg : TaglessBroadcast, newTaglessBroadcast env msg address = .ok b →
      ∃ bytes rest, Broadcast.encodeForEncryption env b.data b.signature Writer.buffer = .ok ⟨bytes, none⟩ ∧
        env.decrypt (env.v4BroadcastDecryptionKey address) msg.encrypted = .ok (bytes ++ rest) := by
  refine ⟨fun msg h => ?_, fun msg h => newBroadcast_sound hB hV h⟩
  unfold newTaggedBroadcast at h
  split_ifs at h
  exact newBroadcast_sound hB hV h

/-- `refBitmessage`, signed by the key `[1]` and sealed for the address of its own keys in
`soundEnv`, where the message takes no bytes. -/
def soundBroadcast : TaggedBroadcast :=
  Obj.newTaggedBroadcast 0 0 1 [0, 4, 1, 4, 2] ([5, 0, 4, 1, 4, 2] ++
    be64.write (UInt64.ofNat (signatureCodec.write ⟨[1], be64.write 5⟩).length) ++
    signatureCodec.write ⟨[1], be64.write 5⟩)

/-- `soundBroadcast` opens in `soundEnv`. -/
theorem newBroadcast_plaintext_sound_ref :
    soundEnv.broadcast.Sound ∧ soundEnv.varInt.Sound ∧
      ∃ b, newTaggedBroadcast soundEnv soundBroadcast ⟨4, 1, [0, 4, 1, 4, 2]⟩ = .ok b ∧
        ∃ bytes rest, Broadcast.encodeForEncryption soundEnv b.data b.signature Writer.buffer = .ok ⟨bytes, none⟩ ∧
          soundEnv.decrypt (soundEnv.v5BroadcastDecryptionKey ⟨4, 1, [0, 4, 1, 4, 2]⟩) soundBroadcast.encrypted =
            .ok (bytes ++ rest) :=
  have h : newTaggedBroadcast soundEnv soundBroadcast ⟨4, 1, [0, 4, 1, 4, 2]⟩ = .ok _ := rfl
  ⟨constCodec_sound _, be64_sound, _, h, (newBroadcast_plaintext_sound (constCodec_sound _) be64_sound _ _).1 _ h⟩

end BmutilProofs.Cipher

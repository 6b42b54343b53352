import BmutilProofs.Cipher.Open
import BmutilProofs.Identity.Deterministic
import BmutilProofs.Identity.Wif

/-!
Creating a broadcast and opening it again. The signer hashes the signing form of the
incomplete object and the message; the object `Encrypt` makes has the same signing form,
whatever its nonce, and the two encoders agree on every writer, so the opener hashes the
same bytes. The keys of an identity that
`NewHD` or `ImportWIF` returns make its address, so the opener also finds the address it
opens with. The identities of `NewRandom` and `NewDeterministic` have no address, and the
creators panic on them.
-/

namespace BmutilProofs.Cipher

open BmutilProofs.Stream BmutilProofs.Model BmutilProofs.Identity BmutilProofs.Reference BmutilProofs.Wif

variable {env : Env}

/-- What `signAndEncrypt` does when it succeeds: it signs the SHA-256 of the object's signing
form and the message, and the object is the encryption of the message and the serialized
signature. -/
lemma signAndEncrypt_eq_ok {i : IncompleteBroadcast} {address : Address} {priv : Private}
    {data : Bitmessage} {msg : ObjBroadcast} {signature : Bytes}
    (h : Broadcast.signAndEncrypt env i address priv data = .ok (msg, signature)) :
    ∃ sig, env.sign priv.signingKey (env.sha256 (msg.bytesForSigning env ++ env.broadcast.write data)) =
        .ok sig ∧ signature = env.serialize sig ∧
      i.encrypt env address
        (env.broadcast.write data ++ (env.varInt.write (UInt64.ofNat signature.length) ++ signature)) = .ok msg := by
  obtain ⟨w, hw, h⟩ := bind_eq_ok.mp h
  obtain ⟨sig, hs, h⟩ := bind_eq_ok.mp h
  obtain ⟨w', hw', h⟩ := bind_eq_ok.mp h
  obtain ⟨msg', he, h⟩ := bind_eq_ok.mp h
  rw [mapError_eq_ok] at hw hs hw' he
  obtain ⟨rfl, rfl⟩ : msg' = msg ∧ env.serialize sig = signature := by simpa using h
  rw [Broadcast.encodeForEncryption_eq] at hw'
  obtain rfl := (Except.ok.inj hw').symm
  simp only [broadcastEncodeForSigning, Writer.buffer, i.encode_of_encrypt he, ok_bind, Writer.buffer_write,
    Except.ok.injEq] at hw
  subst hw
  exact ⟨sig, hs, rfl, he⟩

/-- **The signer and the opener encode the same signing form.** For the object `Encrypt`
makes from an incomplete broadcast, `broadcastEncodeForSigning` of the incomplete broadcast
and `encodeForSigning` of a broadcast holding the object give the same outcome on every
writer: they append the object's signing form and the message, or fail, and they fail
exactly when a fixed writer has room for fewer of those bytes. -/
theorem encodeForSigning_agree {i : IncompleteBroadcast} {address : Address} {p : Bytes} {msg : ObjBroadcast}
    (h : i.encrypt env address p = .ok msg) (data : Bitmessage) (signature : Bytes) (w : Writer) :
    broadcastEncodeForSigning env w i data = (⟨msg, data, signature⟩ : Broadcast).encodeForSigning env w ∧
      (∀ w', broadcastEncodeForSigning env w i data = .ok w' →
        w'.buf = w.buf ++ (msg.bytesForSigning env ++ env.broadcast.write data)) ∧
      (Failed (broadcastEncodeForSigning env w i data) ↔
        ∃ n, w.room = some n ∧ n < (msg.bytesForSigning env ++ env.broadcast.write data).length) := by
  have he : broadcastEncodeForSigning env w i data =
      w.write (msg.bytesForSigning env ++ env.broadcast.write data) := by
    rw [broadcastEncodeForSigning, IncompleteBroadcast.encode_eq_write h, Writer.write_append]
  refine ⟨by rw [he, Broadcast.encodeForSigning, Writer.write_append], fun _ hw => Writer.buf_of_write (he ▸ hw), ?_⟩
  rw [he, Writer.write_failed_iff]

/-- A tagged broadcast for `spoofAddress` through a fixed writer of three bytes. -/
theorem encodeForSigning_agree_fixed :
    ∃ msg, IncompleteBroadcast.encrypt refEnv (.tagged 300 1 [9]) spoofAddress [7] = .ok msg ∧
      broadcastEncodeForSigning refEnv (Writer.fixed 3) (.tagged 300 1 [9]) refBitmessage =
        (⟨msg, refBitmessage, []⟩ : Broadcast).encodeForSigning refEnv (Writer.fixed 3) ∧
      (∀ w', broadcastEncodeForSigning refEnv (Writer.fixed 3) (.tagged 300 1 [9]) refBitmessage = .ok w' →
        w'.buf = (Writer.fixed 3).buf ++ (msg.bytesForSigning refEnv ++ refEnv.broadcast.write refBitmessage)) ∧
      (Failed (broadcastEncodeForSigning refEnv (Writer.fixed 3) (.tagged 300 1 [9]) refBitmessage) ↔
        ∃ n, (Writer.fixed 3).room = some n ∧
          n < (msg.bytesForSigning refEnv ++ refEnv.broadcast.write refBitmessage).length) :=
  have h : IncompleteBroadcast.encrypt refEnv (.tagged 300 1 [9]) spoofAddress [7] = .ok _ := rfl
  ⟨_, h, encodeForSigning_agree h refBitmessage [] (Writer.fixed 3)⟩

/-- The keys of an identity whose address is that of its keys make that address again. -/
lemma keysMatch_of_addressOfKeys {priv : Private} {address : Address} {data : Bitmessage}
    (hk : AddressOfKeys env priv) (ha : priv.address = some address)
    (hsk : env.toBtcec data.signingKey = .ok (env.pubKey priv.signingKey))
    (hek : env.toBtcec data.encryptionKey = .ok (env.pubKey priv.decryptionKey)) :
    KeysMatch env address data (env.pubKey priv.signingKey) := by
  obtain ⟨a, ha', hr⟩ := hk
  obtain rfl : a = address := Option.some.inj (ha'.symm.trans ha)
  refine ⟨_, _, hsk, hek, rfl, ?_⟩
  show env.addressString ⟨a.version, a.stream, Private.hash env priv⟩ = env.addressString a
  rw [← hr]

/-- An object whose ciphertext decrypts under the key to the encryption form of an authentic
message and its signature opens to them. -/
lemma newBroadcast_of_sealed (hB : env.broadcast.ReadsBack (·.destination = none)) (hV : env.varInt.Inverts)
    {msg : ObjBroadcast} {key : PrivateKey} {address : Address} {data : Bitmessage} (hd : data.destination = none)
    {signature : Bytes} {signKey : PublicKey}
    (hdec : env.decrypt key msg.encrypted =
      .ok (env.broadcast.write data ++ (env.varInt.write (UInt64.ofNat signature.length) ++ signature)))
    (hlen : signature.length ≤ env.signatureMaxLength.toNat) (hk : KeysMatch env address data signKey)
    (hs : SignatureVerifies env msg data signature signKey) :
    newBroadcast env msg key address = .ok ⟨msg, data, signature⟩ := by
  have hread : env.broadcast.read (env.broadcast.write data ++
      (env.varInt.write (UInt64.ofNat signature.length) ++ signature)) =
      .ok (data, env.varInt.write (UInt64.ofNat signature.length) ++ signature ++ []) := by
    rw [List.append_nil]
    exact hB _ _ hd
  exact newBroadcast_eq_ok_iff.mpr
    ⟨data, signature, ⟨_, [], hdec, decodeFromDecrypted_eq hV hread hlen⟩, hlen, ⟨signKey, hk, hs⟩, rfl⟩

/-- The broadcast key of the address opens what `Encrypt` seals. -/
lemma decrypt_of_encrypt (hE : env.EciesInverts) {i : IncompleteBroadcast} {address : Address} {p : Bytes}
    {msg : ObjBroadcast} (h : i.encrypt env address p = .ok msg) :
    env.decrypt (match i with
      | .tagless .. => env.v4BroadcastDecryptionKey address
      | .tagged .. => env.v5BroadcastDecryptionKey address) msg.encrypted = .ok p := by
  cases i <;>
  · obtain ⟨c, hc, h⟩ := bind_eq_ok.mp h
    cases h
    exact hE _ _ _ hc

/-- A broadcast `signAndEncrypt` makes for an identity whose keys match the address opens,
under a key that decrypts what `Encrypt` seals, to its object, message and signature; and so
does any object with the same ciphertext and signing form, such as the same object with
another nonce. -/
lemma newBroadcast_of_signAndEncrypt (hS : env.SignaturesVerify)
    (hB : env.broadcast.ReadsBack (·.destination = none)) (hV : env.varInt.Inverts) {i : IncompleteBroadcast} {address : Address} {priv : Private} {data : Bitmessage}
    (hd : data.destination = none)
    {msg msg' : ObjBroadcast} {signature : Bytes} {key : PrivateKey}
    (hk : KeysMatch env address data (env.pubKey priv.signingKey))
    (h : Broadcast.signAndEncrypt env i address priv data = .ok (msg, signature))
    (hdec : ∀ p, i.encrypt env address p = .ok msg → env.decrypt key msg.encrypted = .ok p)
    (he : msg'.encrypted = msg.encrypted) (hsf : msg'.bytesForSigning env = msg.bytesForSigning env) :
    newBroadcast env msg' key address = .ok ⟨msg', data, signature⟩ := by
  obtain ⟨sig, hsign, rfl, henc⟩ := signAndEncrypt_eq_ok h
  obtain ⟨hlen, sig', hp, hv⟩ := hS _ _ _ hsign
  exact newBroadcast_of_sealed hB hV hd (he ▸ hdec _ henc) hlen hk ⟨sig', hp, .inl (hsf ▸ hv)⟩

/-- **Identities without an address cannot broadcast.** The identities `NewRandom` and
`NewDeterministic` return have no address, so both creators, once the destination check
passes, dereference the nil address and panic on them, whatever the message, expiration and
tag. -/
theorem createBroadcast_of_random_or_deterministic {priv : Private}
    (hpriv : (∃ keys fuel initialZeros, newRandom env keys fuel initialZeros = some (.ok priv)) ∨
      ∃ fuel passphrase initialZeros n ids,
        newDeterministic env fuel passphrase initialZeros n = some (.ok ids) ∧ priv ∈ ids)
    {data : Bitmessage} (hd : data.destination = none) (expiration : Int) (tag : Bytes) :
    createTaglessBroadcast env expiration data priv = none ∧
      createTaggedBroadcast env expiration data tag priv = none := by
  have ha : priv.address = none := by
    rcases hpriv with ⟨_, _, _, h⟩ | ⟨_, _, _, _, _, h, hmem⟩
    · exact (newRandom_spec h).2.2.2.2.1
    · exact Deterministic.newDeterministic_address h priv hmem
  simp [createTaglessBroadcast, createTaggedBroadcast, ha, hd]

/-- The first identity `NewDeterministic` makes in the reference environment. -/
theorem createBroadcast_of_random_or_deterministic_ref :
    newDeterministic refEnv 1 [] 1 2 =
        some (.ok [Deterministic.attemptIdentity refEnv [] 0, Deterministic.attemptIdentity refEnv [] 1]) ∧
      createTaglessBroadcast refEnv 300 refBitmessage (Deterministic.attemptIdentity refEnv [] 0) = none ∧
      createTaggedBroadcast refEnv 300 refBitmessage [] (Deterministic.attemptIdentity refEnv [] 0) = none :=
  have h : newDeterministic refEnv 1 [] 1 2 =
      some (.ok [Deterministic.attemptIdentity refEnv [] 0, Deterministic.attemptIdentity refEnv [] 1]) := rfl
  ⟨h, createBroadcast_of_random_or_deterministic (.inr ⟨1, [], 1, 2, _, h, List.mem_cons_self _ _⟩) rfl 300 []⟩

/-- **Create then open recovers the message.** Let `priv` be an identity that `NewHD` or
`ImportWIF` returns, with address `address`, and `data` a message with no destination whose
keys are the public keys of the identity's two keys. When `CreateTaglessBroadcast` returns a
broadcast, its object, with any nonce in its header, opens with `NewTaglessBroadcast` under
the address to that object, `data` and the same signature; and so do `CreateTaggedBroadcast`
and `NewTaggedBroadcast` for the tag of the address. The collaborators meet the laws: ECIES
decryption inverts encryption, a signature is within `SignatureMaxLength` and verifies under
its key, the reader of messages reads back every message with no destination, and the reader
of varints inverts its writer. -/
theorem open_create (hE : env.EciesInverts) (hS : env.SignaturesVerify)
    (hB : env.broadcast.ReadsBack (·.destination = none))
    (hV : env.varInt.Inverts) {priv : Private}
    (hpriv : (∃ fuel masterKey n stream behavior, newHD env fuel masterKey n stream behavior = some (.ok priv)) ∨
      ∃ address signingKeyWif decryptionKeyWif nonceTrials extraBytes,
        importWIF env address signingKeyWif decryptionKeyWif nonceTrials extraBytes = .ok priv)
    {address : Address} (ha : priv.address = some address) {data : Bitmessage} (hd : data.destination = none)
    (hsk : env.toBtcec data.signingKey = .ok (env.pubKey priv.signingKey))
    (hek : env.toBtcec data.encryptionKey = .ok (env.pubKey priv.decryptionKey)) (expiration : Int) :
    (∀ b, createTaglessBroadcast env expiration data priv = some (.ok b) →
      ∃ m, b.msg = .tagless m ∧ ∀ nonce,
        newTaglessBroadcast env { m with header := { m.header with nonce := nonce } } address =
          .ok ⟨.tagless { m with header := { m.header with nonce := nonce } }, data, b.signature⟩) ∧
    ∀ tag b, tag = env.tag address → createTaggedBroadcast env expiration data tag priv = some (.ok b) →
      ∃ m, b.msg = .tagged m ∧ ∀ nonce,
        newTaggedBroadcast env { m with header := { m.header with nonce := nonce } } address =
          .ok ⟨.tagged { m with header := { m.header with nonce := nonce } }, data, b.signature⟩ := by
  have hk : KeysMatch env address data (env.pubKey priv.signingKey) := by
    refine keysMatch_of_addressOfKeys ?_ ha hsk hek
    rcases hpriv with ⟨_, _, _, _, _, h⟩ | ⟨_, _, _, _, _, h⟩
    · exact newHD_addressOfKeys h
    · exact importWIF_addressOfKeys h
  refine ⟨fun b hb => ?_, fun tag b ht hb => ?_⟩
  · -- tagless
    simp only [createTaglessBroadcast, hd, Option.isSome_none, Bool.false_eq_true, if_false, ha,
      Option.map_some'] at hb
    obtain ⟨⟨msg, signature⟩, hs, hb⟩ := bind_eq_ok.mp (Option.some.inj hb)
    cases hb
    obtain ⟨_, -, -, henc⟩ := signAndEncrypt_eq_ok hs
    obtain ⟨c, -, hm⟩ := bind_eq_ok.mp henc
    cases hm
    exact ⟨_, rfl, fun nonce => newBroadcast_of_signAndEncrypt hS hB hV hd hk hs
      (fun _ => decrypt_of_encrypt hE) rfl rfl⟩
  · -- tagged
    simp only [createTaggedBroadcast, hd, Option.isSome_none, Bool.false_eq_true, if_false, ha,
      Option.map_some'] at hb
    obtain ⟨⟨msg, signature⟩, hs, hb⟩ := bind_eq_ok.mp (Option.some.inj hb)
    cases hb
    obtain ⟨_, -, -, henc⟩ := signAndEncrypt_eq_ok hs
    obtain ⟨c, -, hm⟩ := bind_eq_ok.mp henc
    cases hm
    refine ⟨_, rfl, fun nonce => ?_⟩
    rw [newTaggedBroadcast_of_tag ht]
    exact newBroadcast_of_signAndEncrypt hS hB hV hd hk hs (fun _ => decrypt_of_encrypt hE) rfl rfl

/-- The address of `refIdentity`. -/
def refAddress : Address := ⟨4, 1, [0, 4, 1, 82, 0, 1, 0, 0, 4, 1, 82, 0, 1, 0, 1]⟩

/-- The identity `NewHD` makes from `refMaster` in the reference environment. -/
def refIdentity : Private := ⟨some refAddress, ⟨1000, 1000⟩, ⟨[1, 82, 0, 1, 0, 0]⟩, ⟨[1, 82, 0, 1, 0, 1]⟩, 0⟩

/-- `refBitmessage` with the public keys of `refIdentity`. -/
def refIdentityMessage : Bitmessage :=
  { refBitmessage with signingKey := refIdentity.signingKey.d, encryptionKey := refIdentity.decryptionKey.d }

/-- The HD identity of the reference environment broadcasts `refIdentityMessage`, tagless and
tagged, and both open again. -/
theorem open_create_ref :
    newHD refEnv 1 refMaster 0 1 0 = some (.ok refIdentity) ∧ refIdentity.address = some refAddress ∧
      refIdentityMessage.destination = none ∧
      refEnv.toBtcec refIdentityMessage.signingKey = .ok (refEnv.pubKey refIdentity.signingKey) ∧
      refEnv.toBtcec refIdentityMessage.encryptionKey = .ok (refEnv.pubKey refIdentity.decryptionKey) ∧
      (∃ b, createTaglessBroadcast refEnv 300 refIdentityMessage refIdentity = some (.ok b)) ∧
      (∃ b, createTaggedBroadcast refEnv 300 refIdentityMessage (refEnv.tag refAddress) refIdentity =
        some (.ok b)) ∧
      (∀ b, createTaglessBroadcast refEnv 300 refIdentityMessage refIdentity = some (.ok b) →
        ∃ m, b.msg = .tagless m ∧ ∀ nonce,
          newTaglessBroadcast refEnv { m with header := { m.header with nonce := nonce } } refAddress =
            .ok ⟨.tagless { m with header := { m.header with nonce := nonce } }, refIdentityMessage,
              b.signature⟩) ∧
      ∀ tag b, tag = refEnv.tag refAddress →
        createTaggedBroadcast refEnv 300 refIdentityMessage tag refIdentity = some (.ok b) →
        ∃ m, b.msg = .tagged m ∧ ∀ nonce,
          newTaggedBroadcast refEnv { m with header := { m.header with nonce := nonce } } refAddress =
            .ok ⟨.tagged { m with header := { m.header with nonce := nonce } }, refIdentityMessage,
              b.signature⟩ :=
  have h : newHD refEnv 1 refMaster 0 1 0 = some (.ok refIdentity) := rfl
  ⟨h, rfl, rfl, rfl, rfl, ⟨_, rfl⟩, ⟨_, rfl⟩, open_create refEnv_eciesInverts refEnv_signaturesVerify
    (bitmessageCodec_inverts.readsBack _) be64_inverts (.inl ⟨_, _, _, _, _, h⟩) rfl (by rfl) (by rfl) (by rfl) 300⟩

end BmutilProofs.Cipher

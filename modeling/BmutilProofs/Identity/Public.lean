import BmutilProofs.Identity.Wif

/-!
The public forms of a private identity: `Public()`, the public identity others hold for it,
and `ToPubKeyData()`, the key data a public key object carries.

For an identity whose address is that of its keys, as those `NewHD` and `ImportWIF` return,
both forms make the address again. `Public()` is exactly the public identity `NewPublic`
builds from its own keys on the address's version and stream; it drops the behavior, which
`ToPubKeyData()` keeps. The keys `ToPubKeyData()` publishes, each after the prefix byte of an
uncompressed point, hash to the ripe of the address.
-/

namespace BmutilProofs.Identity

open BmutilProofs.Stream BmutilProofs.Model BmutilProofs.Reference BmutilProofs.Wif

variable {env : Env}

lemma addressOfKeys_of_newHD_or_importWIF {priv : Private}
    (hpriv : (∃ fuel masterKey n stream behavior, newHD env fuel masterKey n stream behavior = some (.ok priv)) ∨
      ∃ address signingKeyWif decryptionKeyWif nonceTrials extraBytes,
        importWIF env address signingKeyWif decryptionKeyWif nonceTrials extraBytes = .ok priv) :
    AddressOfKeys env priv := by
  rcases hpriv with ⟨_, _, _, _, _, h⟩ | ⟨_, _, _, _, _, h⟩
  · exact newHD_addressOfKeys h
  · exact importWIF_addressOfKeys h

/-- **`Public()` is the public identity of the keys.** For an identity `NewHD` or `ImportWIF`
returns, with address `a`, `Public()` gives the public identity of address `a`, the identity's
proof-of-work parameters, the public keys of its signing and decryption keys, and behavior zero
whatever the identity's; and `NewPublic` of those two keys, that behavior and those parameters,
for the version and stream of `a`, gives it back: a receiver regenerates the address it
carries. -/
theorem public_newPublic {priv : Private}
    (hpriv : (∃ fuel masterKey n stream behavior, newHD env fuel masterKey n stream behavior = some (.ok priv)) ∨
      ∃ address signingKeyWif decryptionKeyWif nonceTrials extraBytes,
        importWIF env address signingKeyWif decryptionKeyWif nonceTrials extraBytes = .ok priv)
    {a : Address} (ha : priv.address = some a) :
    Private.public env priv =
        some ⟨a, priv.pow, env.pubKey priv.signingKey, env.pubKey priv.decryptionKey, 0⟩ ∧
      newPublic env (env.pubKey priv.signingKey) (env.pubKey priv.decryptionKey) 0 priv.pow a.version
        a.stream = .ok ⟨a, priv.pow, env.pubKey priv.signingKey, env.pubKey priv.decryptionKey, 0⟩ := by
  obtain ⟨a', ha', hr⟩ := addressOfKeys_of_newHD_or_importWIF hpriv
  obtain rfl : a' = a := Option.some.inj (ha'.symm.trans ha)
  refine ⟨by rw [Private.public, ha]; rfl, ?_⟩
  simp only [newPublic, createAddress, ok_bind, pure_eq_ok]
  rw [show hashHelper env _ _ = _ from hr.symm]

/-- The identity `NewHD` makes from `refMaster` with behavior one. -/
theorem public_newPublic_ref :
    ∃ priv a, newHD refEnv 1 refMaster 0 1 1 = some (.ok priv) ∧ priv.address = some a ∧
      Private.public refEnv priv =
          some ⟨a, priv.pow, refEnv.pubKey priv.signingKey, refEnv.pubKey priv.decryptionKey, 0⟩ ∧
        newPublic refEnv (refEnv.pubKey priv.signingKey) (refEnv.pubKey priv.decryptionKey) 0 priv.pow
          a.version a.stream =
            .ok ⟨a, priv.pow, refEnv.pubKey priv.signingKey, refEnv.pubKey priv.decryptionKey, 0⟩ :=
  have h : newHD refEnv 1 refMaster 0 1 1 = some (.ok _) := rfl
  ⟨_, _, h, rfl, public_newPublic (.inl ⟨_, _, _, _, _, h⟩) rfl⟩

lemma length_copyPubKey (b : Bytes) : (copyPubKey b).length = 64 := by
  simp [copyPubKey]; omega

/-- A 65-byte serialization is its prefix byte and what `ToPubKeyData` copies of it. -/
lemma cons_copyPubKey_tail (hU : env.SerializesUncompressed) (pk : PublicKey) :
    4 :: copyPubKey (env.serializeUncompressed pk).tail = env.serializeUncompressed pk := by
  obtain ⟨xy, h, hl⟩ := hU pk
  rw [h, List.tail_cons, copyPubKey, List.take_of_length_le hl.le, hl, Nat.sub_self, List.replicate_zero,
    List.append_nil]

/-- **The published key data hashes to the address.** When `SerializeUncompressed` writes a
prefix byte 4 and 64 bytes, the two keys `ToPubKeyData()` publishes for an identity `NewHD`
or `ImportWIF` returns, each after the prefix byte 4, hash to the ripe of the identity's
address, as the hash of an address is taken. -/
theorem toPubKeyData_hash (hU : env.SerializesUncompressed) {priv : Private}
    (hpriv : (∃ fuel masterKey n stream behavior, newHD env fuel masterKey n stream behavior = some (.ok priv)) ∨
      ∃ address signingKeyWif decryptionKeyWif nonceTrials extraBytes,
        importWIF env address signingKeyWif decryptionKeyWif nonceTrials extraBytes = .ok priv)
    {address : Address} (ha : priv.address = some address) :
    hashHelper env (4 :: (Private.toPubKeyData env priv).verificationKey)
      (4 :: (Private.toPubKeyData env priv).encryptionKey) = address.ripe := by
  obtain ⟨a, ha', hr⟩ := addressOfKeys_of_newHD_or_importWIF hpriv
  obtain rfl : a = address := Option.some.inj (ha'.symm.trans ha)
  simp only [Private.toPubKeyData, cons_copyPubKey_tail hU, hr]
  rfl

/-- The reference collaborators with points of 64 bytes: a key's bytes are cut or padded to
64. -/
def wideEnv : Env := { refEnv with serializeUncompressed := fun p => 4 :: copyPubKey (p.x ++ p.y) }

lemma wideEnv_serializesUncompressed : wideEnv.SerializesUncompressed :=
  fun _ => ⟨_, rfl, length_copyPubKey _⟩

/-- The identity `NewHD` makes from `refMaster` with 64-byte points. -/
theorem toPubKeyData_hash_wide :
    wideEnv.SerializesUncompressed ∧ ∃ priv address, newHD wideEnv 1 refMaster 0 1 0 = some (.ok priv) ∧
      priv.address = some address ∧
      hashHelper wideEnv (4 :: (Private.toPubKeyData wideEnv priv).verificationKey)
        (4 :: (Private.toPubKeyData wideEnv priv).encryptionKey) = address.ripe :=
  have h : newHD wideEnv 1 refMaster 0 1 0 = some (.ok _) := rfl
  ⟨wideEnv_serializesUncompressed, _, _, h, rfl,
    toPubKeyData_hash wideEnv_serializesUncompressed (.inl ⟨_, _, _, _, _, h⟩) rfl⟩

end BmutilProofs.Identity

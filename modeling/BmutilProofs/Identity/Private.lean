import BmutilProofs.Model

/-!
Private identities (`private.go` of the `identity` package): the hash of a key pair, the
deterministic and the hierarchical-deterministic constructors, and export and import in
wallet import format.

The searches of `NewDeterministic` and `NewHD` loop until a hash starts with zero bytes, so
they run here on fuel: `none` is a call that has not returned within it.
-/

namespace BmutilProofs.Identity

open BmutilProofs.Stream BmutilProofs.Model

/-- `BMPurposeCode`. -/
def BMPurposeCode : UInt32 := 0x80000052

/-- `hdkeychain.HardenedKeyStart`. -/
def HardenedKeyStart : UInt32 := 0x80000000

/-- `new(Private)`: the zero identity. Its keys are nil in Go, and are set before they are
read. -/
def newPrivate : Private := ⟨none, ⟨0, 0⟩, ⟨[]⟩, ⟨[]⟩, 0⟩

/-- Modelled from the spec: `createAddress`, absent from src/. An address is its version,
its stream number and its ripe hash. -/
def createAddress (version stream : UInt64) (ripe : Bytes) : Except LibError Address :=
  .ok ⟨version, stream, ripe⟩

variable (env : Env)

/-- `hashHelper`: RIPEMD-160 of SHA-512 of the two keys. -/
def hashHelper (signingKey decryptionKey : Bytes) : Bytes :=
  env.ripemd160 (env.sha512 (signingKey ++ decryptionKey))

/-- `Private.hash`. -/
def Private.hash (id : Private) : Bytes :=
  hashHelper env (env.serializeUncompressed (env.pubKey id.signingKey))
    (env.serializeUncompressed (env.pubKey id.decryptionKey))

/-- `Private.setDefaultPOWParams`. -/
def Private.setDefaultPOWParams (id : Private) : Private := { id with pow := env.defaultPow }

/-- `Private.Public`. The public identity keeps the address and the proof-of-work parameters
and takes the public keys of the two keys; its `Behavior` is not set, so it is zero. For an
identity without an address Go returns a public identity with a nil address; it is `none`
here, since a `Public` of this model always has one. -/
def Private.public (id : Private) : Option Public :=
  id.address.map fun a => ⟨a, id.pow, env.pubKey id.signingKey, env.pubKey id.decryptionKey, 0⟩

/-- `copy` into a `wire.PubKey`: the first 64 bytes, then zeros if there are fewer. -/
def copyPubKey (b : Bytes) : Bytes := b.take 64 ++ List.replicate (64 - b.length) 0

/-- `Private.ToPubKeyData`: the uncompressed serializations of the two public keys without
their first byte, each copied into a `wire.PubKey`, with the proof-of-work parameters and the
behavior. -/
def Private.toPubKeyData (id : Private) : PubKeyData :=
  ⟨id.pow, copyPubKey (env.serializeUncompressed (env.pubKey id.signingKey)).tail,
    copyPubKey (env.serializeUncompressed (env.pubKey id.decryptionKey)).tail, id.behavior⟩

/-- Modelled from the spec: `identity.NewPublic`, absent from src/. The public identity of
two keys, with its address regenerated from the keys for the version and stream given. -/
def newPublic (verificationKey encryptionKey : PublicKey) (behavior : UInt32) (pow : PowData)
    (version stream : UInt64) : Except LibError Public := do
  let address ← createAddress version stream (hashHelper env
    (env.serializeUncompressed verificationKey) (env.serializeUncompressed encryptionKey))
  pure ⟨address, pow, verificationKey, encryptionKey, behavior⟩

/-! ### `NewDeterministic` -/

/-- The key `NewDeterministic` derives from the passphrase and a nonce. -/
def deterministicKey (passphrase : Bytes) (nonce : UInt64) : PrivateKey :=
  env.privKeyFromBytes ((env.sha512 (passphrase ++ env.varInt.write nonce)).take 32)

/-- `bytes.Equal(h[0:initialZeros], initialZeroBytes)`, with the slice within the hash. -/
def hasInitialZeros (h : Bytes) (initialZeros : Nat) : Bool :=
  h.take initialZeros == List.replicate initialZeros 0

/-- The inner loop of `NewDeterministic`, on `fuel` tries: the identity found, with the two
nonces after it. -/
def searchKeys (passphrase : Bytes) (initialZeros : UInt64) :
    Nat → Private → UInt64 → UInt64 → Option (Private × UInt64 × UInt64)
  | 0, _, _, _ => none
  | fuel + 1, id, signingKeyNonce, decryptionKeyNonce =>
    let id := { id with signingKey := deterministicKey env passphrase signingKeyNonce,
                        decryptionKey := deterministicKey env passphrase decryptionKeyNonce }
    if hasInitialZeros (Private.hash env id) initialZeros.toNat then
      some (id, signingKeyNonce + 2, decryptionKeyNonce + 2)
    else searchKeys passphrase initialZeros fuel id (signingKeyNonce + 2) (decryptionKeyNonce + 2)

/-- The outer loop of `NewDeterministic`: `n` more identities, from the nonces given. -/
def generateKeys (passphrase : Bytes) (initialZeros : UInt64) (fuel : Nat) :
    Nat → UInt64 → UInt64 → Option (List Private)
  | 0, _, _ => some []
  | n + 1, signingKeyNonce, decryptionKeyNonce => do
    let (id, signingKeyNonce, decryptionKeyNonce) ←
      searchKeys env passphrase initialZeros fuel newPrivate signingKeyNonce decryptionKeyNonce
    let ids ← generateKeys passphrase initialZeros fuel n signingKeyNonce decryptionKeyNonce
    pure (Private.setDefaultPOWParams env id :: ids)

/-- `NewDeterministic`, each search on `fuel` tries. -/
def newDeterministic (fuel : Nat) (passphrase : Bytes) (initialZeros : UInt64) (n : Nat) :
    Option (Except LibError (List Private)) :=
  if initialZeros < 1 then some (.error (.text "minimum 1 initial zero needed"))
  else (generateKeys env passphrase initialZeros fuel n 0 1).map .ok

/-! ### `NewRandom` -/

/-- The loop of `NewRandom`, on `fuel` tries: the decryption key is the next key of the
generator until the hash starts with the zero bytes. `keys i` is what the `i`-th call of
`btcec.NewPrivateKey` returns. -/
def searchRandomKey (keys : Nat → Except LibError PrivateKey) (initialZeros : Nat) :
    Nat → Private → Nat → Option (Except LibError Private)
  | 0, _, _ => none
  | fuel + 1, id, i =>
    match keys i with
    | .error e => some (.error e)
    | .ok decryptionKey =>
      let id := { id with decryptionKey := decryptionKey }
      if hasInitialZeros (Private.hash env id) initialZeros then some (.ok id)
      else searchRandomKey keys initialZeros fuel id (i + 1)

/-- `NewRandom`, its search on `fuel` tries; the signing key is the generator's first key. -/
def newRandom (keys : Nat → Except LibError PrivateKey) (fuel : Nat) (initialZeros : Int) :
    Option (Except LibError Private) :=
  if initialZeros < 1 then some (.error (.text "minimum 1 initial zero needed")) else
  match keys 0 with
  | .error e => some (.error e)
  | .ok signingKey =>
    (searchRandomKey env keys initialZeros.toNat fuel { newPrivate with signingKey := signingKey } 1).map
      fun r => r.map (Private.setDefaultPOWParams env)

/-! ### `NewHD` -/

/-- The derivation `m / purpose' / identity' / stream' / address'` of `NewHD`, with the
signing key `.../address'/0`. -/
def hdAddressKey (masterKey : ExtendedKey) (n stream : UInt32) :
    Except LibError (ExtendedKey × ExtendedKey) := do
  let p ← env.child masterKey BMPurposeCode
  let i ← env.child p (HardenedKeyStart + n)
  let s ← env.child i (HardenedKeyStart + stream)
  let a ← env.child s (HardenedKeyStart + 0)
  let signKey ← env.child a 0
  pure (a, signKey)

/-- The loop of `NewHD`, on `fuel` tries: children `i, i + 1, ...` of `a` as decryption key
until the hash starts with a zero byte. A child that cannot be derived is skipped. -/
def searchDecryptionKey (a : ExtendedKey) : Nat → Private → UInt32 → Option Private
  | 0, _, _ => none
  | fuel + 1, id, i =>
    match env.child a i with
    | .error _ => searchDecryptionKey a fuel id (i + 1)
    | .ok encKey =>
      let id := { id with decryptionKey := env.ecPrivKey encKey }
      if (Private.hash env id).head? = some 0 then some id
      else searchDecryptionKey a fuel id (i + 1)

/-- `NewHD`, its search on `fuel` tries. -/
def newHD (fuel : Nat) (masterKey : ExtendedKey) (n stream behavior : UInt32) :
    Option (Except LibError Private) :=
  if !masterKey.isPrivate then some (.error (.text "master key must be private")) else
  match hdAddressKey env masterKey n stream with
  | .error e => some (.error e)
  | .ok (a, signKey) =>
    (searchDecryptionKey env a fuel
      { newPrivate with signingKey := env.ecPrivKey signKey, behavior := behavior } 1).map
      fun id => do
        let address ← createAddress 4 stream.toUInt64 (Private.hash env id)
        pure (Private.setDefaultPOWParams env { id with address := some address })

/-! ### Wallet import format -/

/-- `ImportWIF`. -/
def importWIF (address signingKeyWif decryptionKeyWif : Bytes) (nonceTrials extraBytes : UInt64) :
    Except LibError Private := do
  let addr ← env.decodeAddress address
  let privSigningKey ← (env.decodeWIF signingKeyWif).mapError
    fun e => .text ("signing key decode failed: " ++ e.error)
  let privDecryptionKey ← (env.decodeWIF decryptionKeyWif).mapError
    fun e => .text ("encryption key decode failed: " ++ e.error)
  let priv : Private := ⟨some addr, ⟨nonceTrials, extraBytes⟩, privSigningKey, privDecryptionKey, 0⟩
  let address ← createAddress addr.version addr.stream (Private.hash env priv)
  if address.ripe ≠ addr.ripe then throw (.text "address does not correspond to private keys")
  pure { priv with address := some address }

/-- `Private.ExportWIF`; `none` where the address is nil and Go panics. -/
def Private.exportWIF (id : Private) : Option (Bytes × Bytes × Bytes) :=
  id.address.map fun a => (env.addressString a, env.encodeWIF id.signingKey, env.encodeWIF id.decryptionKey)

/-! ### Identities whose address is that of their keys -/

/-- The identity's address carries the hash of its own keys. -/
def AddressOfKeys (id : Private) : Prop := ∃ a, id.address = some a ∧ a.ripe = Private.hash env id

variable {env}

/-- The hash reads the two keys only. -/
lemma hash_congr {id id' : Private} (hs : id.signingKey = id'.signingKey)
    (hd : id.decryptionKey = id'.decryptionKey) : Private.hash env id = Private.hash env id' := by
  simp [Private.hash, hs, hd]

/-- An identity `ImportWIF` returns has the address of its keys, on the version and stream of
the address it decoded, the two keys it decoded, the proof-of-work parameters given and
behavior zero. -/
lemma importWIF_spec {address signingKeyWif decryptionKeyWif : Bytes} {nonceTrials extraBytes : UInt64}
    {priv : Private} (h : importWIF env address signingKeyWif decryptionKeyWif nonceTrials extraBytes = .ok priv) :
    ∃ addr sk dk, env.decodeAddress address = .ok addr ∧ env.decodeWIF signingKeyWif = .ok sk ∧
      env.decodeWIF decryptionKeyWif = .ok dk ∧ addr.ripe = Private.hash env priv ∧
      priv = ⟨some ⟨addr.version, addr.stream, addr.ripe⟩, ⟨nonceTrials, extraBytes⟩, sk, dk, 0⟩ := by
  obtain ⟨addr, ha, h⟩ := bind_eq_ok.mp h
  obtain ⟨sk, hs, h⟩ := bind_eq_ok.mp h
  obtain ⟨dk, hd, h⟩ := bind_eq_ok.mp h
  rw [mapError_eq_ok] at hs hd
  simp only [createAddress, ok_bind] at h
  split_ifs at h with hr
  · simp at h
  simp only [pure_eq_ok, ok_bind, Except.ok.injEq] at h
  subst h
  have hr' : Private.hash env ⟨some addr, ⟨nonceTrials, extraBytes⟩, sk, dk, 0⟩ = addr.ripe := not_not.mp hr
  exact ⟨addr, sk, dk, ha, hs, hd, hr'.symm, by simp only [hr']⟩

lemma importWIF_addressOfKeys {address signingKeyWif decryptionKeyWif : Bytes}
    {nonceTrials extraBytes : UInt64} {priv : Private}
    (h : importWIF env address signingKeyWif decryptionKeyWif nonceTrials extraBytes = .ok priv) :
    AddressOfKeys env priv := by
  obtain ⟨addr, sk, dk, -, -, -, hr, rfl⟩ := importWIF_spec h
  exact ⟨_, rfl, hr⟩

end BmutilProofs.Identity

import BmutilProofs.Wire.Stream

/-!
The data of the `identity` and `cipher` packages, and the collaborators they call.

Keys, signatures and addresses are records of bytes. The collaborators (`btcec`, the hash
functions, `hdkeychain`, the address and WIF codecs and key derivations of `bmutil`, the
wire codecs, and `Bitmessage.encodeBroadcast`/`decodeBroadcast`) are the fields of `Env`.
What the theorems assume of them is stated here as laws, and each theorem takes as hypotheses
only the laws its proof uses.
-/

namespace BmutilProofs.Model

open BmutilProofs.Stream

/-- `btcec.PrivateKey`, by its secret scalar. -/
structure PrivateKey where
  d : Bytes
  deriving DecidableEq, Repr

/-- `btcec.PublicKey`: a curve point. -/
structure PublicKey where
  x : Bytes
  y : Bytes
  deriving DecidableEq, Repr

/-- `btcec.Signature`. -/
structure Signature where
  r : Bytes
  s : Bytes
  deriving DecidableEq, Repr

/-- `bmutil.Address`: a version, a stream number and a ripe hash. -/
structure Address where
  version : UInt64
  stream : UInt64
  ripe : Bytes
  deriving DecidableEq, Repr

/-- `pow.Data`. -/
structure PowData where
  nonceTrialsPerByte : UInt64
  extraBytes : UInt64
  deriving DecidableEq, Repr

/-- `hdkeychain.ExtendedKey`. -/
structure ExtendedKey where
  key : Bytes
  chainCode : Bytes
  isPrivate : Bool
  deriving DecidableEq, Repr

/-- `identity.Private`. The address is an interface value, nil until it is set. -/
structure Private where
  address : Option Address
  pow : PowData
  signingKey : PrivateKey
  decryptionKey : PrivateKey
  behavior : UInt32
  deriving DecidableEq, Repr

/-- `identity.Public`, absent from src/. Its address is always there: `NewPublic`, which builds
one from keys, always sets it, and `verify` calls `String()` on it. The one public identity of
the source with a nil address, `Public()` of an identity without one, is `Private.public`'s
`none`. -/
structure Public where
  address : Address
  pow : PowData
  verificationKey : PublicKey
  encryptionKey : PublicKey
  behavior : UInt32
  deriving DecidableEq, Repr

/-- `obj.PubKeyData`: what a public key object carries. The keys are `wire.PubKey` values,
the 64 bytes of a point's two coordinates. -/
structure PubKeyData where
  pow : PowData
  verificationKey : Bytes
  encryptionKey : Bytes
  behavior : UInt32
  deriving DecidableEq, Repr

/-- `cipher.Bitmessage`, with the fields the spec gives it: the sender's keys in wire form,
its proof-of-work parameters and behavior flags, an optional destination ripe, and the
body. -/
structure Bitmessage where
  signingKey : Bytes
  encryptionKey : Bytes
  pow : PowData
  behavior : UInt32
  destination : Option Bytes
  body : Bytes
  deriving DecidableEq, Repr

/-- `wire.ObjectType`. -/
inductive ObjectType
  | getPubKey
  | pubKey
  | msg
  | broadcast
  deriving DecidableEq, Repr

/-- `wire.ObjectHeader`. -/
structure ObjectHeader where
  nonce : UInt64
  expiration : Int
  objectType : ObjectType
  version : UInt64
  streamNumber : UInt64
  deriving DecidableEq, Repr

/-- `obj.TaglessBroadcast`. -/
structure TaglessBroadcast where
  header : ObjectHeader
  encrypted : Bytes
  deriving DecidableEq, Repr

/-- `obj.TaggedBroadcast`. -/
structure TaggedBroadcast where
  header : ObjectHeader
  tag : Bytes
  encrypted : Bytes
  deriving DecidableEq, Repr

/-- The `obj.Broadcast` interface, over its two implementations. -/
inductive ObjBroadcast
  | tagless (m : TaglessBroadcast)
  | tagged (m : TaggedBroadcast)
  deriving DecidableEq, Repr

/-- The collaborators. -/
structure Env where
  /-- `PrivateKey.PubKey`. -/
  pubKey : PrivateKey → PublicKey
  serializeUncompressed : PublicKey → Bytes
  privKeyFromBytes : Bytes → PrivateKey
  /-- `PrivateKey.Sign` of a hash. -/
  sign : PrivateKey → Bytes → Except LibError Signature
  serialize : Signature → Bytes
  parseSignature : Bytes → Except LibError Signature
  /-- `Signature.Verify` of a hash under a key. -/
  verify : Signature → Bytes → PublicKey → Bool
  /-- `btcec.Encrypt` (ECIES). -/
  encrypt : PublicKey → Bytes → Except LibError Bytes
  /-- `btcec.Decrypt` (ECIES). -/
  decrypt : PrivateKey → Bytes → Except LibError Bytes
  sha1 : Bytes → Bytes
  sha256 : Bytes → Bytes
  sha512 : Bytes → Bytes
  ripemd160 : Bytes → Bytes
  /-- `ExtendedKey.Child`. -/
  child : ExtendedKey → UInt32 → Except LibError ExtendedKey
  /-- `ExtendedKey.ECPrivKey`, which only fails on a public key. -/
  ecPrivKey : ExtendedKey → PrivateKey
  /-- `bmutil.WriteVarInt` and `bmutil.ReadVarInt`. -/
  varInt : Codec UInt64
  /-- `Address.String`. -/
  addressString : Address → Bytes
  decodeAddress : Bytes → Except LibError Address
  encodeWIF : PrivateKey → Bytes
  decodeWIF : Bytes → Except LibError PrivateKey
  /-- `bmutil.Tag`. -/
  tag : Address → Bytes
  v4BroadcastDecryptionKey : Address → PrivateKey
  v5BroadcastDecryptionKey : Address → PrivateKey
  /-- `pow.DefaultNonceTrialsPerByte` and `pow.DefaultExtraBytes`. -/
  defaultPow : PowData
  /-- The bytes `ObjectHeader.EncodeForSigning` writes for an expiration, an object type, a
  version and a stream number. -/
  headerForSigning : Int → ObjectType → UInt64 → UInt64 → Bytes
  /-- `wire.PubKey.ToBtcec`. -/
  toBtcec : Bytes → Except LibError PublicKey
  /-- `obj.SignatureMaxLength`. -/
  signatureMaxLength : UInt64
  /-- `Bitmessage.encodeBroadcast` and `Bitmessage.decodeBroadcast`. -/
  broadcast : Codec Bitmessage

/-! ### Broadcast objects -/

/-- Modelled from the spec: `obj.TaglessBroadcastVersion`, absent from src/. -/
def TaglessBroadcastVersion : UInt64 := 4

/-- Modelled from the spec: `obj.TaggedBroadcastVersion`, absent from src/. -/
def TaggedBroadcastVersion : UInt64 := 5

/-- Modelled from the spec: `obj.NewTaglessBroadcast`, absent from src/. -/
def Obj.newTaglessBroadcast (nonce : UInt64) (expiration : Int) (streamNumber : UInt64)
    (encrypted : Bytes) : TaglessBroadcast :=
  ⟨⟨nonce, expiration, .broadcast, TaglessBroadcastVersion, streamNumber⟩, encrypted⟩

/-- Modelled from the spec: `obj.NewTaggedBroadcast`, absent from src/. -/
def Obj.newTaggedBroadcast (nonce : UInt64) (expiration : Int) (streamNumber : UInt64)
    (tag encrypted : Bytes) : TaggedBroadcast :=
  ⟨⟨nonce, expiration, .broadcast, TaggedBroadcastVersion, streamNumber⟩, tag, encrypted⟩

/-- `Encrypted()`. -/
def ObjBroadcast.encrypted : ObjBroadcast → Bytes
  | .tagless m => m.encrypted
  | .tagged m => m.encrypted

/-- Modelled from the spec: the bytes `EncodeForSigning` of a broadcast object writes, absent
from src/: the header's signing form, which leaves out the nonce, then the tag of a tagged
broadcast. -/
def ObjBroadcast.bytesForSigning (env : Env) : ObjBroadcast → Bytes
  | .tagless m =>
    env.headerForSigning m.header.expiration m.header.objectType m.header.version m.header.streamNumber
  | .tagged m =>
    env.headerForSigning m.header.expiration m.header.objectType m.header.version m.header.streamNumber ++
      m.tag

/-! ### Laws of the collaborators -/

namespace Env

variable (env : Env)

/-- ECIES decryption inverts encryption for a key pair. -/
def EciesInverts : Prop :=
  ∀ k p c, env.encrypt (env.pubKey k) p = .ok c → env.decrypt k c = .ok p

/-- A signature `Sign` makes serializes to at most `SignatureMaxLength` bytes, which parse
back to a signature that verifies under the public key. -/
def SignaturesVerify : Prop :=
  ∀ k h sig, env.sign k h = .ok sig →
    (env.serialize sig).length ≤ env.signatureMaxLength.toNat ∧
      ∃ sig', env.parseSignature (env.serialize sig) = .ok sig' ∧ env.verify sig' h (env.pubKey k) = true

/-- `bmutil.DecodeAddress` inverts `Address.String`. -/
def AddressStringInverts : Prop := ∀ a, env.decodeAddress (env.addressString a) = .ok a

/-- `bmutil.DecodeWIF` inverts `bmutil.EncodeWIF`. -/
def WifInverts : Prop := ∀ k, env.decodeWIF (env.encodeWIF k) = .ok k

/-- `SerializeUncompressed` writes the prefix byte 4 and then the 64 bytes of the point's two
coordinates. -/
def SerializesUncompressed : Prop := ∀ pk, ∃ xy, env.serializeUncompressed pk = 4 :: xy ∧ xy.length = 64

end Env

end BmutilProofs.Model

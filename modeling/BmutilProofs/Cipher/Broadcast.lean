import BmutilProofs.Identity.Private
import BmutilProofs.Reference

/-!
Broadcasts (`broadcast.go` of the `cipher` package). Creating one signs the SHA-256 of the
object's header and the message, and encrypts the message with its signature under the
broadcast key of the sender's address. Opening one decrypts it with that key, decodes the
message and the signature, checks that the keys in the message make the address it was
opened with, and checks the signature against the SHA-256, or else the SHA-1, of the same
bytes.

Every writer here is a `bytes.Buffer`, but for `encodeForEncryption`, which is also run
through fixed writers: a fixed writer it fails on keeps the `Write` calls that fit before the
failing one.
-/

namespace BmutilProofs.Cipher

open BmutilProofs.Stream BmutilProofs.Model BmutilProofs.Identity BmutilProofs.Reference

/-- The errors of the package: `ErrInvalidIdentity`, `ErrInvalidSignature`, and the errors of
the calls it makes, passed on. -/
inductive CipherError
  | invalidIdentity
  | invalidSignature
  | lib (e : LibError)
  deriving DecidableEq, Repr

/-- `string(b)`: a byte string as a Go string, a character for each byte. -/
def goString (b : Bytes) : String := String.mk (b.map fun c => Char.ofNat c.toNat)

variable (env : Env)

/-! ### Creating a broadcast -/

/-- `incompleteTaglessBroadcast` and `incompleteTaggedBroadcast`: a broadcast object before its
payload is encrypted. -/
inductive IncompleteBroadcast
  | tagless (expiration : Int) (streamNumber : UInt64)
  | tagged (expiration : Int) (streamNumber : UInt64) (tag : Bytes)
  deriving DecidableEq, Repr

/-- `Encode`: the signing form of the header the object will have, with nonce zero, then the
tag of a tagged one. -/
def IncompleteBroadcast.encode : IncompleteBroadcast → Writer → Except LibError Writer
  | .tagless expiration streamNumber, w =>
    w.write (env.headerForSigning expiration .broadcast TaglessBroadcastVersion streamNumber)
  | .tagged expiration streamNumber tag, w => do
    let w ← w.write (env.headerForSigning expiration .broadcast TaggedBroadcastVersion streamNumber)
    w.write tag

/-- `Encrypt`: the object, with nonce zero, of the data encrypted under the broadcast key of
the address. -/
def IncompleteBroadcast.encrypt : IncompleteBroadcast → Address → Bytes → Except LibError ObjBroadcast
  | .tagless expiration streamNumber, address, data => do
    let encrypted ← env.encrypt (env.pubKey (env.v4BroadcastDecryptionKey address)) data
    pure (.tagless (Obj.newTaglessBroadcast 0 expiration streamNumber encrypted))
  | .tagged expiration streamNumber tag, address, data => do
    let encrypted ← env.encrypt (env.pubKey (env.v5BroadcastDecryptionKey address)) data
    pure (.tagged (Obj.newTaggedBroadcast 0 expiration streamNumber tag encrypted))

/-- `broadcastEncodeForSigning`. -/
def broadcastEncodeForSigning (w : Writer) (i : IncompleteBroadcast) (data : Bitmessage) :
    Except LibError Writer := do
  let w ← i.encode env w
  w.write (env.broadcast.write data)

/-- `Broadcast`. Its object is nil in Go only while `signAndEncrypt` runs, and is set in every
broadcast the package returns. -/
structure Broadcast where
  msg : ObjBroadcast
  data : Bitmessage
  signature : Bytes
  deriving DecidableEq, Repr

/-- `Broadcast.encodeForSigning`. -/
def Broadcast.encodeForSigning (b : Broadcast) (w : Writer) : Except LibError Writer := do
  let w ← w.write (b.msg.bytesForSigning env)
  w.write (env.broadcast.write b.data)

/-- `Broadcast.encodeForEncryption`, of the data and the signature it reads. -/
def Broadcast.encodeForEncryption (data : Bitmessage) (signature : Bytes) (w : Writer) :
    Except LibError Writer := do
  let w ← w.write (env.broadcast.write data)
  let w ← w.write (env.varInt.write (UInt64.ofNat signature.length))
  w.write signature

/-- `Broadcast.decodeFromDecrypted`: the data and the signature it sets, and the unread rest. -/
def Broadcast.decodeFromDecrypted (r : Bytes) : Except LibError (Bitmessage × Bytes × Bytes) := do
  let (data, r) ← env.broadcast.read r
  let (sigLength, r) ← env.varInt.read r
  if sigLength > env.signatureMaxLength then
    throw (.messageError "DecodeFromDecrypted" ("signature length exceeds max length - indicates " ++
      toString sigLength ++ ", but max length is " ++ toString env.signatureMaxLength))
  let (signature, r) ← readFull sigLength.toNat r
  pure (data, signature, r)

/-- `Broadcast.signAndEncrypt`: the object and the signature it sets. -/
def Broadcast.signAndEncrypt (i : IncompleteBroadcast) (address : Address) (priv : Private)
    (data : Bitmessage) : Except CipherError (ObjBroadcast × Bytes) := do
  let b ← (broadcastEncodeForSigning env Writer.buffer i data).mapError .lib
  let hash := env.sha256 b.buf
  let sig ← (env.sign priv.signingKey hash).mapError fun e => .lib (.text ("signing failed: " ++ e.error))
  let signature := env.serialize sig
  -- `b.Reset()`: the encryption form goes to an empty buffer
  let b ← (Broadcast.encodeForEncryption env data signature Writer.buffer).mapError .lib
  let msg ← (i.encrypt env address b.buf).mapError fun e => .lib (.text ("encryption failed: " ++ e.error))
  pure (msg, signature)

/-- `CreateTaglessBroadcast`; `none` where the identity has no address and Go panics. -/
def createTaglessBroadcast (expiration : Int) (data : Bitmessage) (priv : Private) :
    Option (Except CipherError Broadcast) :=
  if data.destination.isSome then some (.error (.lib (.text "Broadcasts do not have a destination.")))
  else priv.address.map fun address => do
    let (msg, signature) ← Broadcast.signAndEncrypt env (.tagless expiration address.stream) address priv data
    pure ⟨msg, data, signature⟩

/-- `CreateTaggedBroadcast`; `none` where the identity has no address and Go panics. -/
def createTaggedBroadcast (expires : Int) (data : Bitmessage) (tag : Bytes) (priv : Private) :
    Option (Except CipherError Broadcast) :=
  if data.destination.isSome then some (.error (.lib (.text "Broadcasts do not have a destination.")))
  else priv.address.map fun address => do
    let (msg, signature) ←
      Broadcast.signAndEncrypt env (.tagged expires address.stream tag) address priv data
    pure ⟨msg, data, signature⟩

/-! ### Opening a broadcast -/

/-- The error of `verify` when the keys of the message make another address than the one used
to decrypt. -/
def addressMismatchError (dencAddr genAddr : Bytes) : LibError :=
  .text ("Address used for decryption (" ++ goString dencAddr ++
    ") doesn\x27t match that generated from public key (" ++ goString genAddr ++
    "). Possible surreptitious forwarding attack.")

/-- `Broadcast.verify`. -/
def Broadcast.verify (b : Broadcast) (address : Address) : Except CipherError Unit := do
  -- the embedded keys must make the address used to decrypt
  let signKey ← (env.toBtcec b.data.signingKey).mapError .lib
  let encKey ← (env.toBtcec b.data.encryptionKey).mapError .lib
  let id ← (newPublic env signKey encKey b.data.behavior b.data.pow address.version address.stream).mapError .lib
  let genAddr := env.addressString id.address
  let dencAddr := env.addressString address
  if dencAddr ≠ genAddr then throw (.lib (addressMismatchError dencAddr genAddr))
  let w ← (b.encodeForSigning env Writer.buffer).mapError .lib
  let hash := env.sha256 w.buf
  let sha1hash := env.sha1 w.buf
  let sig ← (env.parseSignature b.signature).mapError fun _ => .invalidSignature
  -- SHA-256 first, then SHA-1
  if !env.verify sig hash signKey then
    if !env.verify sig sha1hash signKey then throw .invalidSignature
  pure ()

/-- `newBroadcast`. A decryption that fails on its MAC is `ErrInvalidIdentity`. -/
def newBroadcast (msg : ObjBroadcast) (key : PrivateKey) (address : Address) :
    Except CipherError Broadcast := do
  let dec ← (env.decrypt key msg.encrypted).mapError fun e =>
    if e = .invalidMAC then .invalidIdentity else .lib e
  let (data, signature, _) ← (Broadcast.decodeFromDecrypted env dec).mapError .lib
  let b : Broadcast := ⟨msg, data, signature⟩
  b.verify env address
  pure b

/-- `NewTaglessBroadcast`. -/
def newTaglessBroadcast (msg : TaglessBroadcast) (address : Address) : Except CipherError Broadcast :=
  newBroadcast env (.tagless msg) (env.v4BroadcastDecryptionKey address) address

/-- `NewTaggedBroadcast`: the tag is checked, in constant time, before anything is decrypted. -/
def newTaggedBroadcast (msg : TaggedBroadcast) (address : Address) : Except CipherError Broadcast :=
  if msg.tag ≠ env.tag address then .error .invalidIdentity
  else newBroadcast env (.tagged msg) (env.v5BroadcastDecryptionKey address) address

/-! ### What the encoders write into a buffer -/

variable {env}

/-- The object `Encrypt` makes signs as the bytes `Encode` writes: the incomplete broadcast
and the object agree on their signing form, on every writer. -/
lemma IncompleteBroadcast.encode_eq_write {i : IncompleteBroadcast} {address : Address} {data : Bytes}
    {msg : ObjBroadcast} (h : i.encrypt env address data = .ok msg) (w : Writer) :
    i.encode env w = w.write (msg.bytesForSigning env) := by
  cases i <;>
  · obtain ⟨encrypted, -, h⟩ := bind_eq_ok.mp h
    cases h
    simp [encode, ObjBroadcast.bytesForSigning, Obj.newTaglessBroadcast, Obj.newTaggedBroadcast,
      Writer.write_append]

lemma IncompleteBroadcast.encode_of_encrypt {i : IncompleteBroadcast} {address : Address}
    {data : Bytes} {msg : ObjBroadcast} (h : i.encrypt env address data = .ok msg) (buf : Bytes) :
    i.encode env ⟨buf, none⟩ = .ok ⟨buf ++ msg.bytesForSigning env, none⟩ := by
  rw [encode_eq_write h]
  rfl

@[simp] lemma Broadcast.encodeForSigning_buffer (b : Broadcast) :
    b.encodeForSigning env Writer.buffer =
      .ok ⟨b.msg.bytesForSigning env ++ env.broadcast.write b.data, none⟩ := rfl

/-- `encodeForEncryption` is one write of the data, the length of the signature and the
signature. -/
lemma Broadcast.encodeForEncryption_eq (data : Bitmessage) (signature : Bytes) (w : Writer) :
    encodeForEncryption env data signature w =
      w.write (env.broadcast.write data ++ (env.varInt.write (UInt64.ofNat signature.length) ++ signature)) := by
  simp only [encodeForEncryption, Writer.write_append]

end BmutilProofs.Cipher

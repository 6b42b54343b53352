import BmutilProofs.Wire.Inventory
import BmutilProofs.Wire.InventoryRun

/-!
`Decode` inverts `Encode` on inventory messages, for codecs that invert each other: it
reads back the list whatever follows, fails on every strict prefix of the encoding, and
the encoding fits in `MaxPayloadLength`.

From the other side, for sound codecs, what `Decode` accepts is an encoding: `Encode` of the
message it returns writes exactly the bytes it consumed. Every message a run reaches can be
sent and received again, and `Encode` fails on a writer exactly when the message is above
the bound or the writer has too little room.
-/

namespace BmutilProofs.InventoryCodec

open BmutilProofs.Stream BmutilProofs.Inventory BmutilProofs.InventoryRun

variable {varInt : Codec UInt64} {invVect : Codec InvVect}

/-- On a strict prefix of the bytes of `vs`, the read loop fails. -/
lemma readInvVects_take_failed (hi : invVect.Inverts) (vs : List InvVect) {n : Nat}
    (hn : n < (invVect.writeAll vs).length) :
    ∃ e, (readInvVects invVect vs.length ((invVect.writeAll vs).take n)).2 = .error e := by
  induction vs generalizing n with
  | nil => simp at hn
  | cons v vs ih =>
    rw [Codec.writeAll_cons, List.length_append] at hn
    rw [Codec.writeAll_cons, List.take_append_eq_append_take, List.length_cons, readInvVects]
    by_cases hv : n < (invVect.write v).length
    · obtain ⟨e, he⟩ := hi.read_prefix v n hv
      rw [Nat.sub_eq_zero_of_le hv.le, List.take_zero, List.append_nil, he]
      exact ⟨e, rfl⟩
    · rw [List.take_of_length_le (by omega), hi.read_write]
      exact ih (by omega)

/-- The bytes `Encode` writes for a message within the bound. -/
def encoding (varInt : Codec UInt64) (invVect : Codec InvVect) (msg : MsgInv) : Bytes :=
  varInt.write (UInt64.ofNat msg.invList.length) ++ invVect.writeAll msg.invList

lemma toNat_count {msg : MsgInv} (hm : msg.invList.length ≤ MaxInvPerMsg) :
    (UInt64.ofNat msg.invList.length).toNat = msg.invList.length :=
  UInt64.toNat_ofNat_of_lt (by unfold MaxInvPerMsg at hm; unfold UInt64.size; omega)

section Laws

variable (hv : varInt.Inverts) (hi : invVect.Inverts)
include hv hi

lemma decode_encoding {msg : MsgInv} (hm : msg.invList.length ≤ MaxInvPerMsg) (msg₀ : MsgInv)
    (rest : Bytes) :
    msg₀.decode varInt invVect (encoding varInt invVect msg ++ rest) = (msg, .ok rest) := by
  have hc := hv.read_write (UInt64.ofNat msg.invList.length) (invVect.writeAll msg.invList ++ rest)
  rw [← List.append_assoc] at hc
  rw [encoding, decode_of_count hc (by rwa [toNat_count hm]), toNat_count hm,
    readInvVects_of_readsAll (Codec.readsAll_writeAll hi _ _)]

lemma decode_encoding_take_failed {msg : MsgInv} (hm : msg.invList.length ≤ MaxInvPerMsg)
    (msg₀ : MsgInv) {n : Nat} (hn : n < (encoding varInt invVect msg).length) :
    Failed (msg₀.decode varInt invVect ((encoding varInt invVect msg).take n)).2 := by
  rw [encoding, List.take_append_eq_append_take]
  rw [encoding, List.length_append] at hn
  by_cases hlt : n < (varInt.write (UInt64.ofNat msg.invList.length)).length
  · -- the cut is inside the count
    obtain ⟨e, he⟩ := hv.read_prefix _ n hlt
    rw [Nat.sub_eq_zero_of_le hlt.le, List.take_zero, List.append_nil]
    exact ⟨e, by simp [MsgInv.decode, he]⟩
  · -- the cut is inside the vectors
    have hc := hv.read_write (UInt64.ofNat msg.invList.length)
      ((invVect.writeAll msg.invList).take (n - (varInt.write (UInt64.ofNat msg.invList.length)).length))
    rw [List.take_of_length_le (by omega), decode_of_count hc (by rwa [toNat_count hm]),
      toNat_count hm]
    exact readInvVects_take_failed hi _ (by omega)

end Laws

/-- **`Decode` inverts `Encode`.** For a message within the bound, `Encode` into a
`bytes.Buffer` succeeds. `Decode` on its bytes followed by any `rest`, from any prior
state, yields the same list and leaves exactly `rest` unread; it fails on every strict
prefix of those bytes; and there are at most `MaxPayloadLength` of them. -/
theorem decode_encode {maxVarIntSize maxInvVectPayload : Nat}
    (hv : varInt.Inverts) (hvw : varInt.WidthLE maxVarIntSize)
    (hi : invVect.Inverts) (hiw : invVect.WidthLE maxInvVectPayload)
    {msg : MsgInv} (hm : msg.invList.length ≤ MaxInvPerMsg) (msg₀ : MsgInv) (rest : Bytes) :
    ∃ bytes, msg.encode varInt invVect Writer.buffer = .ok ⟨bytes, none⟩ ∧
      msg₀.decode varInt invVect (bytes ++ rest) = (msg, .ok rest) ∧
      (∀ n < bytes.length, Failed (msg₀.decode varInt invVect (bytes.take n)).2) ∧
      bytes.length ≤ msg.maxPayloadLength maxVarIntSize maxInvVectPayload := by
  refine ⟨encoding varInt invVect msg, by rw [encode_eq varInt invVect hm]; rfl,
    decode_encoding hv hi hm msg₀ rest, fun n hn => decode_encoding_take_failed hv hi hm msg₀ hn, ?_⟩
  have h1 := hvw (UInt64.ofNat msg.invList.length)
  have h2 := Codec.length_writeAll_le hiw msg.invList
  have h3 := Nat.mul_le_mul_right maxInvVectPayload hm
  simp only [encoding, MsgInv.maxPayloadLength, List.length_append]
  omega

/-- One zero vector, through the reference codecs. -/
theorem decode_encode_zeroVect :
    (⟨[zeroVect]⟩ : MsgInv).invList.length ≤ MaxInvPerMsg ∧
      ∃ bytes, (⟨[zeroVect]⟩ : MsgInv).encode be64 hashCodec Writer.buffer = .ok ⟨bytes, none⟩ ∧
        newMsgInv.decode be64 hashCodec (bytes ++ []) = (⟨[zeroVect]⟩, .ok []) ∧
        (∀ n < bytes.length, Failed (newMsgInv.decode be64 hashCodec (bytes.take n)).2) ∧
        bytes.length ≤ (⟨[zeroVect]⟩ : MsgInv).maxPayloadLength 9 32 :=
  have hm : (⟨[zeroVect]⟩ : MsgInv).invList.length ≤ MaxInvPerMsg := by decide
  ⟨hm, decode_encode be64_inverts (fun v => (be64_width v).trans (by decide)) hashCodec_inverts
    hashCodec_width hm newMsgInv []⟩

/-! ### What `Decode` accepts, and how `Encode` fails -/

/-- **What `Decode` accepts is an encoding.** For sound codecs, when `Decode` succeeds from
any prior state, the message it leaves is within the bound, and `Encode` of it into a
`bytes.Buffer` writes exactly the bytes `Decode` consumed: relaying a decoded message sends
the bytes received. -/
theorem decode_sound (hvs : varInt.Sound) (his : invVect.Sound) {msg₀ msg : MsgInv} {r rest : Bytes}
    (h : msg₀.decode varInt invVect r = (msg, .ok rest)) :
    msg.invList.length ≤ MaxInvPerMsg ∧
      ∃ bytes, msg.encode varInt invVect Writer.buffer = .ok ⟨bytes, none⟩ ∧ r = bytes ++ rest := by
  rcases decode_cases varInt invVect msg₀ r with ⟨e, hd⟩ | ⟨count, r₀, hc, hmax, hd⟩ <;>
    rw [hd, Prod.mk.injEq] at h
  · cases h.2
  obtain ⟨rfl, hr⟩ := h
  obtain ⟨hlen, hreads⟩ := readInvVects_ok hr
  have hm : (readInvVects invVect count.toNat r₀).1.length ≤ MaxInvPerMsg := by rw [hlen]; exact hmax
  refine ⟨hm, _, by rw [encode_eq varInt invVect hm]; rfl, ?_⟩
  rw [hvs hc]
  conv_lhs => rw [Codec.readsAll_sound his hreads]
  simp only [Writer.buffer, List.nil_append, hlen, ofNat_toNat_uint64, List.append_assoc]

/-- A count of one, a zero vector and one more byte. -/
theorem decode_sound_zeroVect :
    newMsgInv.decode be64 hashCodec (be64.write 1 ++ zeroVect.hash ++ [5]) = (⟨[zeroVect]⟩, .ok [5]) ∧
      (⟨[zeroVect]⟩ : MsgInv).invList.length ≤ MaxInvPerMsg ∧
      ∃ bytes, (⟨[zeroVect]⟩ : MsgInv).encode be64 hashCodec Writer.buffer = .ok ⟨bytes, none⟩ ∧
        be64.write 1 ++ zeroVect.hash ++ [5] = bytes ++ [5] :=
  have h : newMsgInv.decode be64 hashCodec (be64.write 1 ++ zeroVect.hash ++ [5]) = (⟨[zeroVect]⟩, .ok [5]) :=
    rfl
  ⟨h, decode_sound be64_sound hashCodec_sound h⟩

/-- **How `Encode` fails.** On any writer, `Encode` either succeeds and has appended exactly
the encoding of the message, or fails; it fails exactly when the message holds more than
`MaxInvPerMsg` vectors, or the writer is a fixed one with room for fewer bytes than the
encoding. -/
theorem encode_outcome (msg : MsgInv) (w : Writer) :
    (∀ w', msg.encode varInt invVect w = .ok w' → w'.buf = w.buf ++ encoding varInt invVect msg) ∧
      (Failed (msg.encode varInt invVect w) ↔
        MaxInvPerMsg < msg.invList.length ∨ ∃ n, w.room = some n ∧ n < (encoding varInt invVect msg).length) := by
  by_cases hm : msg.invList.length ≤ MaxInvPerMsg
  · rw [encode_eq varInt invVect hm, ← encoding, Writer.write_failed_iff]
    exact ⟨fun _ => Writer.buf_of_write, by simp [not_lt.mpr hm]⟩
  · have he : msg.encode varInt invVect w = .error (.messageError "MsgInv.Encode"
        ("too many invvect in message [" ++ toString msg.invList.length ++ "]")) := by
      simp [MsgInv.encode, Nat.lt_of_not_le hm]
    simp [he, Nat.lt_of_not_le hm]

lemma length_encoding_le {maxVarIntSize maxInvVectPayload : Nat} (hvw : varInt.WidthLE maxVarIntSize)
    (hiw : invVect.WidthLE maxInvVectPayload) {msg : MsgInv} (hm : msg.invList.length ≤ MaxInvPerMsg) :
    (encoding varInt invVect msg).length ≤ msg.maxPayloadLength maxVarIntSize maxInvVectPayload := by
  have h1 := hvw (UInt64.ofNat msg.invList.length)
  have h2 := Codec.length_writeAll_le hiw msg.invList
  have h3 := Nat.mul_le_mul_right maxInvVectPayload hm
  simp only [encoding, MsgInv.maxPayloadLength, List.length_append]
  omega

/-- **Every reachable message can be sent and received.** For codecs that invert each other
with bounded widths, every message a run of `AddInvVect` and `Decode` calls reaches from a
start encodes into a `bytes.Buffer`, within `MaxPayloadLength`, to bytes that `Decode`
reads back to it from any prior state, whatever follows them. -/
theorem reachable_sendable {maxVarIntSize maxInvVectPayload : Nat}
    (hv : varInt.Inverts) (hvw : varInt.WidthLE maxVarIntSize)
    (hi : invVect.Inverts) (hiw : invVect.WidthLE maxInvVectPayload) {msg : MsgInv}
    (h : Reachable varInt invVect msg) :
    ∃ bytes, msg.encode varInt invVect Writer.buffer = .ok ⟨bytes, none⟩ ∧
      bytes.length ≤ msg.maxPayloadLength maxVarIntSize maxInvVectPayload ∧
      ∀ (msg₀ : MsgInv) (rest : Bytes), msg₀.decode varInt invVect (bytes ++ rest) = (msg, .ok rest) :=
  have hm := reachable_sizeOK h
  ⟨encoding varInt invVect msg, by rw [encode_eq varInt invVect hm]; rfl, length_encoding_le hvw hiw hm,
    decode_encoding hv hi hm⟩

/-- The message a new one reaches by adding a zero vector. -/
theorem reachable_sendable_new :
    Reachable be64 hashCodec ⟨[zeroVect]⟩ ∧
      ∃ bytes, (⟨[zeroVect]⟩ : MsgInv).encode be64 hashCodec Writer.buffer = .ok ⟨bytes, none⟩ ∧
        bytes.length ≤ (⟨[zeroVect]⟩ : MsgInv).maxPayloadLength 8 32 ∧
        ∀ (msg₀ : MsgInv) (rest : Bytes), msg₀.decode be64 hashCodec (bytes ++ rest) = (⟨[zeroVect]⟩, .ok rest) :=
  have h : Reachable be64 hashCodec ⟨[zeroVect]⟩ := ⟨newMsgInv, [.addInvVect zeroVect], .inl rfl, rfl⟩
  ⟨h, reachable_sendable be64_inverts be64_width hashCodec_inverts hashCodec_width h⟩

end BmutilProofs.InventoryCodec

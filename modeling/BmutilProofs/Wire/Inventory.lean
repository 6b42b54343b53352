import BmutilProofs.Wire.Stream

/-!
The inventory message of the `wire` package (`msginv.go`): its list of inventory vectors,
`AddInvVect`, `Decode`, `Encode`, `MaxPayloadLength` and the two constructors.

The pointer receivers become explicit state. `AddInvVect` returns the message after the
call together with the error it returns; `Decode` returns the message after the call
together with the unread input or the error, since a failed `Decode` still leaves the
receiver changed. The capacity of the backing array is not kept: nothing reads it.
-/

namespace BmutilProofs.Inventory

open BmutilProofs.Stream

/-- `InvVect`: the 32-byte hash naming an inventory object. -/
structure InvVect where
  hash : Bytes
  hash_length : hash.length = 32
  deriving DecidableEq, Repr

/-- `MaxInvPerMsg`: "Each message is limited to a maximum number of inventory vectors,
which is currently 50,000." -/
def MaxInvPerMsg : Nat := 50000

structure MsgInv where
  invList : List InvVect
  deriving DecidableEq, Repr

/-- `NewMsgInv`. -/
def newMsgInv : MsgInv := ⟨[]⟩

/-- `NewMsgInvSizeHint`: the clamped hint only sizes the backing array. -/
def newMsgInvSizeHint (_sizeHint : Nat) : MsgInv := ⟨[]⟩

/-- `MsgInv.AddInvVect`. -/
def MsgInv.addInvVect (msg : MsgInv) (iv : InvVect) : MsgInv × Option LibError :=
  if msg.invList.length + 1 > MaxInvPerMsg then
    (msg, some (.messageError "MsgInv.AddInvVect"
      ("too many invvect in message [max " ++ toString MaxInvPerMsg ++ "]")))
  else (⟨msg.invList ++ [iv]⟩, none)

section Codecs

variable (varInt : Codec UInt64) (invVect : Codec InvVect)

/-- The loop of `Decode`: `k` more vectors to read and add. The error `AddInvVect` returns
is dropped, as the source drops it. -/
def readInvList : MsgInv → Nat → Bytes → MsgInv × Except LibError Bytes
  | msg, 0, r => (msg, .ok r)
  | msg, k + 1, r =>
    match invVect.read r with
    | .error e => (msg, .error e)
    | .ok (iv, r) => readInvList (msg.addInvVect iv).1 k r

/-- `MsgInv.Decode`. -/
def MsgInv.decode (msg : MsgInv) (r : Bytes) : MsgInv × Except LibError Bytes :=
  match varInt.read r with
  | .error e => (msg, .error e)
  | .ok (count, r) =>
    if count.toNat > MaxInvPerMsg then
      (msg, .error (.messageError "MsgInv.Decode"
        ("too many invvect in message [" ++ toString count ++ "]")))
    else readInvList invVect ⟨[]⟩ count.toNat r

/-- `MsgInv.Encode`. -/
def MsgInv.encode (msg : MsgInv) (w : Writer) : Except LibError Writer := do
  let count := msg.invList.length
  if count > MaxInvPerMsg then
    throw (.messageError "MsgInv.Encode" ("too many invvect in message [" ++ toString count ++ "]"))
  let w ← w.write (varInt.write (UInt64.ofNat count))
  msg.invList.foldlM (fun w iv => w.write (invVect.write iv)) w

end Codecs

/-- `MsgInv.MaxPayloadLength`, for the widths `bmutil.MaxVarIntSize` and
`maxInvVectPayload` of the codecs. -/
def MsgInv.maxPayloadLength (_msg : MsgInv) (maxVarIntSize maxInvVectPayload : Nat) : Nat :=
  maxVarIntSize + MaxInvPerMsg * maxInvVectPayload

/-! ### `AddInvVect` -/

lemma addInvVect_of_lt (msg : MsgInv) (iv : InvVect) (h : msg.invList.length < MaxInvPerMsg) :
    msg.addInvVect iv = (⟨msg.invList ++ [iv]⟩, none) := by
  simp [MsgInv.addInvVect]; omega

/-- A call that returns an error leaves the message as it was. -/
lemma addInvVect_error {msg msg' : MsgInv} {iv : InvVect} {e : LibError}
    (h : msg.addInvVect iv = (msg', some e)) : msg' = msg := by
  unfold MsgInv.addInvVect at h; split_ifs at h <;> simp_all

lemma length_addInvVect_le (msg : MsgInv) (iv : InvVect) (h : msg.invList.length ≤ MaxInvPerMsg) :
    (msg.addInvVect iv).1.invList.length ≤ MaxInvPerMsg := by
  unfold MsgInv.addInvVect; split_ifs <;> simp <;> omega

/-- Within the bound, a call keeps the first `MaxInvPerMsg` vectors of the list and the new
one: it appends, or on a full list drops the vector. -/
lemma addInvVect_fst (msg : MsgInv) (iv : InvVect) (h : msg.invList.length ≤ MaxInvPerMsg) :
    (msg.addInvVect iv).1 = ⟨(msg.invList ++ [iv]).take MaxInvPerMsg⟩ := by
  unfold MsgInv.addInvVect
  split_ifs with hfull
  · rw [List.take_append_of_le_length (by omega), List.take_of_length_le (by omega)]
  · rw [List.take_of_length_le (by simp; omega)]

/-! ### `Encode` -/

/-- Within the bound, `Encode` is one write of the count and the vectors. -/
lemma encode_eq (varInt : Codec UInt64) (invVect : Codec InvVect) {msg : MsgInv}
    (h : msg.invList.length ≤ MaxInvPerMsg) (w : Writer) :
    msg.encode varInt invVect w =
      w.write (varInt.write (UInt64.ofNat msg.invList.length) ++ invVect.writeAll msg.invList) := by
  simp only [MsgInv.encode, gt_iff_lt, not_lt.mpr h, if_false, Writer.foldlM_write, pure_eq_ok, ok_bind]
  exact Writer.write_append _ _ _

/-! ### The read loop

With room for every vector it reads, the loop of `Decode` appends exactly the vectors
`readInvVects` reads: dropping the error of `AddInvVect` never drops a vector. -/

section Loop

variable {invVect : Codec InvVect}

/-- The vectors the loop reads: up to `k`, stopping at the first error. -/
def readInvVects (invVect : Codec InvVect) : Nat → Bytes → List InvVect × Except LibError Bytes
  | 0, r => ([], .ok r)
  | k + 1, r =>
    match invVect.read r with
    | .error e => ([], .error e)
    | .ok (iv, r) => ((iv :: (readInvVects invVect k r).1), (readInvVects invVect k r).2)

lemma readInvList_eq (msg : MsgInv) (k : Nat) (r : Bytes)
    (h : msg.invList.length + k ≤ MaxInvPerMsg) :
    readInvList invVect msg k r = (⟨msg.invList ++ (readInvVects invVect k r).1⟩,
      (readInvVects invVect k r).2) := by
  induction k generalizing msg r with
  | zero => simp [readInvList, readInvVects]
  | succ k ih =>
    simp only [readInvList, readInvVects]
    rcases invVect.read r with e | ⟨iv, r'⟩
    · simp
    · dsimp only
      rw [addInvVect_of_lt msg iv (by omega), ih ⟨msg.invList ++ [iv]⟩ r' (by simp; omega)]
      simp

lemma length_readInvVects_le (k : Nat) (r : Bytes) : (readInvVects invVect k r).1.length ≤ k := by
  induction k generalizing r with
  | zero => simp [readInvVects]
  | succ k ih =>
    simp only [readInvVects]
    rcases invVect.read r with e | ⟨iv, r'⟩
    · simp
    · simpa using ih r'

/-- A loop that ends well has read all `k` vectors, in order. -/
lemma readInvVects_ok {k : Nat} {r r' : Bytes} (h : (readInvVects invVect k r).2 = .ok r') :
    (readInvVects invVect k r).1.length = k ∧
      invVect.ReadsAll r (readInvVects invVect k r).1 r' := by
  induction k generalizing r with
  | zero => simp_all [readInvVects, Codec.ReadsAll]
  | succ k ih =>
    simp only [readInvVects] at h ⊢
    rcases hr : invVect.read r with e | ⟨iv, r₁⟩ <;> simp only [hr] at h ⊢
    · cases h
    · exact ⟨by simp [(ih h).1], r₁, hr, (ih h).2⟩

/-- A loop that fails has read fewer than `k` vectors, then failed on the next one. -/
lemma readInvVects_error {k : Nat} {r : Bytes} {e : LibError}
    (h : (readInvVects invVect k r).2 = .error e) :
    (readInvVects invVect k r).1.length < k ∧
      ∃ r₁, invVect.ReadsAll r (readInvVects invVect k r).1 r₁ ∧ invVect.read r₁ = .error e := by
  induction k generalizing r with
  | zero => simp [readInvVects] at h
  | succ k ih =>
    simp only [readInvVects] at h ⊢
    rcases hr : invVect.read r with e' | ⟨iv, r₁⟩ <;> simp only [hr] at h ⊢
    · cases h; exact ⟨by simp, r, rfl, hr⟩
    · obtain ⟨hlt, r₂, hreads, he⟩ := ih h
      exact ⟨by simp; omega, r₂, ⟨r₁, hr, hreads⟩, he⟩

/-- On input that holds the vectors `vs` in order, the loop reads them. -/
lemma readInvVects_of_readsAll {vs : List InvVect} {r r' : Bytes} (h : invVect.ReadsAll r vs r') :
    readInvVects invVect vs.length r = (vs, .ok r') := by
  induction vs generalizing r with
  | nil => simp_all [readInvVects, Codec.ReadsAll]
  | cons v vs ih =>
    obtain ⟨r₁, hr, hrest⟩ := h
    simp [readInvVects, hr, ih hrest]

end Loop

/-! ### A reference vector codec

The 32 bytes of the hash, read back as `io.ReadFull` reads them. It meets the codec laws and
is sound, and stands in for `writeInvVect`/`readInvVect` where a concrete codec is needed. -/

def hashCodec : Codec InvVect where
  write iv := iv.hash
  read r := if h : 32 ≤ r.length then .ok (⟨r.take 32, by simp [h]⟩, r.drop 32)
    else .error (if r = [] then .eof else .unexpectedEOF)

lemma hashCodec_inverts : hashCodec.Inverts where
  read_write := by
    rintro ⟨h, hh⟩ rest
    simp [hashCodec, hh, List.take_append_of_le_length, List.drop_append_of_le_length]
  read_prefix := by
    rintro ⟨h, hh⟩ n hn
    simp only [hashCodec] at hn ⊢
    rw [dif_neg (by simp; omega)]
    exact failed_error _

lemma hashCodec_width : hashCodec.WidthLE 32 := fun iv => iv.hash_length.le

lemma hashCodec_sound : hashCodec.Sound := by
  intro r iv rest h
  simp only [hashCodec] at h
  split_ifs at h
  cases h
  exact (List.take_append_drop 32 r).symm

/-- The vector of 32 zero bytes. -/
def zeroVect : InvVect := ⟨List.replicate 32 0, rfl⟩

/-! ### A failed `Decode` -/

section Decode

variable {varInt : Codec UInt64} {invVect : Codec InvVect}

/-- A count that cannot be read fails `Decode` with the reader's error, before its loop. -/
lemma decode_of_read_error {msg : MsgInv} {r : Bytes} {e : LibError} (hc : varInt.read r = .error e) :
    msg.decode varInt invVect r = (msg, .error e) := by
  simp [MsgInv.decode, hc]

/-- A count above `MaxInvPerMsg` fails `Decode` before its loop. -/
lemma decode_of_too_many {msg : MsgInv} {r r₀ : Bytes} {count : UInt64}
    (hc : varInt.read r = .ok (count, r₀)) (hmax : MaxInvPerMsg < count.toNat) :
    msg.decode varInt invVect r = (msg, .error (.messageError "MsgInv.Decode"
      ("too many invvect in message [" ++ toString count ++ "]"))) := by
  simp [MsgInv.decode, hc, hmax]

/-- Past a readable count within the bound, `Decode` replaces the list by the vectors its
loop reads: every `AddInvVect` of the loop appends, so dropping its error drops nothing. -/
lemma decode_of_count {msg : MsgInv} {r r₀ : Bytes} {count : UInt64}
    (hc : varInt.read r = .ok (count, r₀)) (hmax : count.toNat ≤ MaxInvPerMsg) :
    msg.decode varInt invVect r =
      (⟨(readInvVects invVect count.toNat r₀).1⟩, (readInvVects invVect count.toNat r₀).2) := by
  simp only [MsgInv.decode, hc, gt_iff_lt, not_lt.mpr hmax, if_false]
  rw [readInvList_eq _ _ _ (by simpa using hmax)]
  rfl

/-- What a `Decode` can do: fail before its loop, leaving the message as it was, or read a
count within the bound and replace the list by what its loop reads. -/
lemma decode_cases (varInt : Codec UInt64) (invVect : Codec InvVect) (msg : MsgInv) (r : Bytes) :
    (∃ e, msg.decode varInt invVect r = (msg, .error e)) ∨
      ∃ count r₀, varInt.read r = .ok (count, r₀) ∧ count.toNat ≤ MaxInvPerMsg ∧
        msg.decode varInt invVect r =
          (⟨(readInvVects invVect count.toNat r₀).1⟩, (readInvVects invVect count.toNat r₀).2) := by
  rcases hc : varInt.read r with e | ⟨count, r₀⟩
  · exact .inl ⟨e, decode_of_read_error hc⟩
  · by_cases hmax : count.toNat ≤ MaxInvPerMsg
    · exact .inr ⟨count, r₀, rfl, hmax, decode_of_count hc hmax⟩
    · exact .inl ⟨_, decode_of_too_many hc (Nat.lt_of_not_le hmax)⟩

/-- **A failed `Decode`.** When it fails before the loop, the message is unchanged: a count
that cannot be read gives the reader's error, and a count above `MaxInvPerMsg` the error
naming it. When it fails inside the loop, after a count within the bound, the list has
already been replaced: it holds the vectors read in order before the failing read, fewer
than the announced count, and the error is that read's. -/
theorem decode_error_state {msg msg' : MsgInv} {r : Bytes} {e : LibError}
    (h : msg.decode varInt invVect r = (msg', .error e)) :
    (∀ e', varInt.read r = .error e' → msg' = msg ∧ e = e') ∧
      (∀ count r₀, varInt.read r = .ok (count, r₀) → MaxInvPerMsg < count.toNat →
        msg' = msg ∧ e = .messageError "MsgInv.Decode"
          ("too many invvect in message [" ++ toString count ++ "]")) ∧
      ∀ count r₀, varInt.read r = .ok (count, r₀) → count.toNat ≤ MaxInvPerMsg →
        msg'.invList.length < count.toNat ∧
          ∃ r₁, invVect.ReadsAll r₀ msg'.invList r₁ ∧ invVect.read r₁ = .error e := by
  refine ⟨fun e' hc => ?_, fun count r₀ hc hmax => ?_, fun count r₀ hc hmax => ?_⟩
  · -- the count cannot be read
    rw [decode_of_read_error hc, Prod.mk.injEq, Except.error.injEq] at h
    exact ⟨h.1.symm, h.2.symm⟩
  · -- the count is above the bound
    rw [decode_of_too_many hc hmax, Prod.mk.injEq, Except.error.injEq] at h
    exact ⟨h.1.symm, h.2.symm⟩
  · -- the loop fails
    rw [decode_of_count hc hmax, Prod.mk.injEq] at h
    rw [← h.1]
    exact readInvVects_error h.2

/-- A count of one and no vector after it: the list is emptied, then the read fails. -/
theorem decode_error_state_truncated :
    (⟨[zeroVect]⟩ : MsgInv).decode be64 hashCodec (be64.write 1) = (⟨[]⟩, .error .eof) ∧
      (∀ e', be64.read (be64.write 1) = .error e' → (⟨[]⟩ : MsgInv) = ⟨[zeroVect]⟩ ∧ .eof = e') ∧
      (∀ count r₀, be64.read (be64.write 1) = .ok (count, r₀) → MaxInvPerMsg < count.toNat →
        (⟨[]⟩ : MsgInv) = ⟨[zeroVect]⟩ ∧ LibError.eof = .messageError "MsgInv.Decode"
          ("too many invvect in message [" ++ toString count ++ "]")) ∧
      ∀ count r₀, be64.read (be64.write 1) = .ok (count, r₀) → count.toNat ≤ MaxInvPerMsg →
        ([] : List InvVect).length < count.toNat ∧
          ∃ r₁, hashCodec.ReadsAll r₀ [] r₁ ∧ hashCodec.read r₁ = .error .eof :=
  have h : (⟨[zeroVect]⟩ : MsgInv).decode be64 hashCodec (be64.write 1) = (⟨[]⟩, .error .eof) := rfl
  ⟨h, decode_error_state h⟩

/-- A `Decode` that fails inside its loop has changed the list. -/
theorem decode_truncated_changes_list :
    (⟨[zeroVect]⟩ : MsgInv).decode be64 hashCodec (be64.write 1) = (⟨[]⟩, .error .eof) ∧
      (⟨[]⟩ : MsgInv) ≠ ⟨[zeroVect]⟩ :=
  ⟨rfl, by simp⟩

end Decode

end BmutilProofs.Inventory

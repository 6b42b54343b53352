import BmutilProofs.Wire.Inventory

/-!
Runs of calls on one inventory message, and the bound on the size of its list.

A run starts from `NewMsgInv()`, from `NewMsgInvSizeHint(h)`, or from a message a
`Decode` filled, and applies any sequence of `AddInvVect` and `Decode` calls, whether they
succeed or fail. The bound `MaxInvPerMsg` holds in every state: each call keeps it, and a
`Decode` that replaces the list announces at most `MaxInvPerMsg` vectors. A run of
`AddInvVect` calls keeps every vector it adds up to the bound, in order, and a `Decode` that
reaches its loop forgets the message it was called on.
-/

namespace BmutilProofs.InventoryRun

open BmutilProofs.Stream BmutilProofs.Inventory

/-- A call on the message. -/
inductive Call
  | addInvVect (iv : InvVect)
  | decode (r : Bytes)

variable (varInt : Codec UInt64) (invVect : Codec InvVect)

/-- The message after a call, whatever the call returns. -/
def step (msg : MsgInv) : Call → MsgInv
  | .addInvVect iv => (msg.addInvVect iv).1
  | .decode r => (msg.decode varInt invVect r).1

def run (msg : MsgInv) (calls : List Call) : MsgInv := calls.foldl (step varInt invVect) msg

@[simp] lemma run_nil (msg : MsgInv) : run varInt invVect msg [] = msg := rfl
@[simp] lemma run_cons (msg : MsgInv) (c : Call) (cs : List Call) :
    run varInt invVect msg (c :: cs) = run varInt invVect (step varInt invVect msg c) cs := rfl

/-- Where a run starts: `NewMsgInv()`, `NewMsgInvSizeHint(h)`, or a message that a
`Decode` filled. -/
def Start (msg : MsgInv) : Prop :=
  msg = newMsgInv ∨ (∃ h, msg = newMsgInvSizeHint h) ∨
    ∃ (msg₀ : MsgInv) (r r' : Bytes), msg₀.decode varInt invVect r = (msg, .ok r')

/-- A message some run reaches from a start. -/
def Reachable (msg : MsgInv) : Prop :=
  ∃ msg₀ calls, Start varInt invVect msg₀ ∧ msg = run varInt invVect msg₀ calls

/-- The list holds at most `MaxInvPerMsg` vectors. -/
def SizeOK (msg : MsgInv) : Prop := msg.invList.length ≤ MaxInvPerMsg

variable {varInt invVect}

/-- A `Decode` either leaves the message as it was and fails, or leaves a list within the
bound. -/
lemma decode_sizeOK (varInt : Codec UInt64) (invVect : Codec InvVect) (msg : MsgInv) (r : Bytes) :
    (∃ e, msg.decode varInt invVect r = (msg, .error e)) ∨ SizeOK (msg.decode varInt invVect r).1 := by
  rcases decode_cases varInt invVect msg r with h | ⟨count, r₀, -, hmax, hd⟩
  · exact .inl h
  · rw [hd]; exact .inr ((length_readInvVects_le _ _).trans hmax)

lemma step_sizeOK {msg : MsgInv} (h : SizeOK msg) (c : Call) :
    SizeOK (step varInt invVect msg c) := by
  cases c with
  | addInvVect iv => exact length_addInvVect_le msg iv h
  | decode r => rcases decode_sizeOK varInt invVect msg r with ⟨e, h'⟩ | h' <;> simp only [step, h', h]

lemma run_sizeOK {msg : MsgInv} (h : SizeOK msg) (calls : List Call) :
    SizeOK (run varInt invVect msg calls) := by
  induction calls generalizing msg with
  | nil => exact h
  | cons c cs ih => exact ih (step_sizeOK h c)

lemma start_sizeOK {msg : MsgInv} (h : Start varInt invVect msg) : SizeOK msg := by
  rcases h with rfl | ⟨_, rfl⟩ | ⟨msg₀, r, r', hd⟩
  · simp [SizeOK, newMsgInv]
  · simp [SizeOK, newMsgInvSizeHint]
  · rcases decode_sizeOK varInt invVect msg₀ r with ⟨e, h'⟩ | h'
    · rw [hd] at h'; cases h'
    · rwa [hd] at h'

lemma reachable_sizeOK {msg : MsgInv} (h : Reachable varInt invVect msg) : SizeOK msg := by
  obtain ⟨msg₀, calls, hs, rfl⟩ := h
  exact run_sizeOK (start_sizeOK hs) calls

lemma take_take_append {α : Type} (n : Nat) (xs ys : List α) :
    (xs.take n ++ ys).take n = (xs ++ ys).take n := by
  rw [List.take_append_eq_append_take, List.take_append_eq_append_take, List.take_take, Nat.min_self,
    List.length_take]
  congr 2
  omega

/-- **`AddInvVect` loses and duplicates nothing.** From a message within the bound, a run of
`AddInvVect` calls leaves the list followed by the vectors added, in order, cut at
`MaxInvPerMsg`: each call appends its vector until the list is full, and every later call
drops its own. -/
theorem run_addInvVect {msg : MsgInv} (h : SizeOK msg) (vs : List InvVect) :
    run varInt invVect msg (vs.map .addInvVect) = ⟨(msg.invList ++ vs).take MaxInvPerMsg⟩ := by
  induction vs generalizing msg with
  | nil => simp [List.take_of_length_le h]
  | cons v vs ih =>
    rw [List.map_cons, run_cons, step, addInvVect_fst msg v h, ih (by simp [SizeOK]), take_take_append,
      List.append_assoc, List.singleton_append]

/-- Two vectors added to a new message. -/
theorem run_addInvVect_new :
    SizeOK newMsgInv ∧ run be64 hashCodec newMsgInv ([zeroVect, zeroVect].map .addInvVect) =
      ⟨(newMsgInv.invList ++ [zeroVect, zeroVect]).take MaxInvPerMsg⟩ :=
  have h : SizeOK newMsgInv := Nat.zero_le _
  ⟨h, run_addInvVect h _⟩

end BmutilProofs.InventoryRun

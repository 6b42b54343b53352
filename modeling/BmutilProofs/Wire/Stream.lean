import Mathlib

/-!
Byte streams, the `io.Writer` and `io.Reader` the encoders and decoders of the repository
are written against, and wire codecs with the laws the theorems about them assume.

A writer is a buffer with an optional limit on what it accepts in all: `bytes.Buffer` has
none, the fixed-size writer of the tests has one. The encoders are modelled by what they
return, the writer after them or the first error; a run of `Write` calls (`putAll`) also keeps
the writer a failing call leaves, holding what the calls before it wrote, and returns the same
outcome however the bytes are cut into calls. A reader is the list of unread bytes.
Collaborator codecs (`WriteVarInt`/`ReadVarInt`, `writeInvVect`/`readInvVect`,
`encodeBroadcast`/`decodeBroadcast`) are pairs of a byte image and a reader. A codec
inverts when its reader reads back what its writer writes, and is sound when its reader
accepts nothing else.
-/

namespace BmutilProofs.Stream

/-- A Go byte slice or string. -/
abbrev Bytes := List UInt8

/-- The errors the collaborators return: those of `io`, `btcec.ErrInvalidMAC`,
`wire.MessageError`, and the texts of `errors.New` and `fmt.Errorf`. -/
inductive LibError
  | eof
  | unexpectedEOF
  | shortWrite
  | invalidMAC
  | messageError (func description : String)
  | text (s : String)
  deriving DecidableEq, Repr

/-- `Error()`: the text of the error. -/
def LibError.error : LibError → String
  | .eof => "EOF"
  | .unexpectedEOF => "unexpected EOF"
  | .shortWrite => "short write"
  | .invalidMAC => "invalid mac hash"
  | .messageError func description => if func = "" then description else func ++ ": " ++ description
  | .text s => s

/-- The call returned an error. -/
def Failed {ε α : Type} (x : Except ε α) : Prop := ∃ e, x = .error e

/-! ### `Except` as the Go `if err != nil { return err }` idiom -/

section Except

variable {ε ε' α β : Type}

@[simp] lemma ok_bind (a : α) (f : α → Except ε β) : (Except.ok a >>= f) = f a := rfl
@[simp] lemma error_bind (e : ε) (f : α → Except ε β) : (Except.error e >>= f) = .error e := rfl
@[simp] lemma pure_eq_ok (a : α) : (pure a : Except ε α) = .ok a := rfl
@[simp] lemma throw_eq_error (e : ε) : (throw e : Except ε α) = .error e := rfl
@[simp] lemma mapError_ok (f : ε → ε') (a : α) : (Except.ok a).mapError f = .ok a := rfl
@[simp] lemma mapError_error (f : ε → ε') (e : ε) :
    (Except.error e : Except ε α).mapError f = .error (f e) := rfl

lemma bind_eq_ok {x : Except ε α} {f : α → Except ε β} {b : β} :
    x >>= f = .ok b ↔ ∃ a, x = .ok a ∧ f a = .ok b := by
  cases x <;> simp

lemma bind_eq_error {x : Except ε α} {f : α → Except ε β} {e : ε} :
    x >>= f = .error e ↔ x = .error e ∨ ∃ a, x = .ok a ∧ f a = .error e := by
  cases x <;> simp [eq_comm]

lemma mapError_eq_ok {x : Except ε α} {f : ε → ε'} {a : α} : x.mapError f = .ok a ↔ x = .ok a := by
  cases x <;> simp

@[simp] lemma failed_error (e : ε) : Failed (Except.error e : Except ε α) := ⟨e, rfl⟩
@[simp] lemma not_failed_ok (a : α) : ¬ Failed (Except.ok a : Except ε α) := by simp [Failed]

lemma failed_bind {x : Except ε α} {f : α → Except ε β} (h : Failed x) : Failed (x >>= f) := by
  obtain ⟨e, rfl⟩ := h; simp

end Except

@[simp] lemma toNat_uint64_ofNat (n : Nat) : (UInt64.ofNat n).toNat = n % 2 ^ 64 := rfl

lemma ofNat_toNat_uint64 (v : UInt64) : UInt64.ofNat v.toNat = v :=
  UInt64.toNat.inj (UInt64.toNat_ofNat_of_lt v.toNat_lt_size)

/-! ### Writers -/

/-- An `io.Writer`: the bytes it holds, and how many more it accepts (`none` for a
`bytes.Buffer`, which takes everything; `some n` for `fixed.NewWriter(n)`). A write that
does not fit fails with `io.ErrShortWrite` and writes nothing. -/
structure Writer where
  buf : Bytes
  room : Option Nat
  deriving DecidableEq, Repr

/-- An empty `bytes.Buffer`. -/
def Writer.buffer : Writer := ⟨[], none⟩

/-- `fixed.NewWriter(n)`. -/
def Writer.fixed (n : Nat) : Writer := ⟨[], some n⟩

def Writer.write (w : Writer) (p : Bytes) : Except LibError Writer :=
  match w.room with
  | none => .ok ⟨w.buf ++ p, none⟩
  | some n => if p.length ≤ n then .ok ⟨w.buf ++ p, some (n - p.length)⟩ else .error .shortWrite

@[simp] lemma Writer.write_nil (w : Writer) : w.write [] = .ok w := by
  rcases w with ⟨buf, _ | n⟩ <;> simp [write]

/-- Two writes in a row succeed exactly when one write of both does, with the same
result: the success of an encoder does not depend on how it cuts its output. -/
lemma Writer.write_append (w : Writer) (a b : Bytes) :
    (w.write a >>= fun w => w.write b) = w.write (a ++ b) := by
  rcases w with ⟨buf, _ | n⟩
  · simp [write]
  · by_cases ha : a.length ≤ n <;> by_cases hb : a.length + b.length ≤ n <;>
      simp [write, ha, hb, Nat.sub_sub] <;> omega

@[simp] lemma Writer.buffer_write (w : Bytes) (p : Bytes) :
    (⟨w, none⟩ : Writer).write p = .ok ⟨w ++ p, none⟩ := rfl

/-- A fixed writer fails exactly when the bytes do not fit in what is left of it. -/
lemma Writer.write_fixed_failed {buf p : Bytes} {n : Nat} :
    Failed ((⟨buf, some n⟩ : Writer).write p) ↔ n < p.length := by
  by_cases h : p.length ≤ n <;> simp [write, h]; omega

/-- A write that succeeds appends its bytes. -/
lemma Writer.buf_of_write {w w' : Writer} {p : Bytes} (h : w.write p = .ok w') : w'.buf = w.buf ++ p := by
  rcases w with ⟨buf, _ | n⟩
  · cases h; rfl
  · simp only [write] at h
    split_ifs at h
    cases h; rfl

/-- A write fails exactly on a fixed writer with too little room. -/
lemma Writer.write_failed_iff {w : Writer} {p : Bytes} :
    Failed (w.write p) ↔ ∃ n, w.room = some n ∧ n < p.length := by
  rcases w with ⟨buf, _ | n⟩
  · simp [write]
  · simp [write_fixed_failed]

/-- Writing the items of a list one after another is one write of all their bytes. -/
lemma Writer.foldlM_write {α : Type} (f : α → Bytes) (l : List α) (w : Writer) :
    l.foldlM (fun w a => w.write (f a)) w = w.write (l.map f).flatten := by
  induction l generalizing w with
  | nil => simp
  | cons a l ih => simp only [List.foldlM_cons, ih, List.map_cons, List.flatten_cons, write_append]

/-! ### What a writer keeps -/

/-- A run of `Write` calls on one writer: they go in order and stop at the first that fails,
and the writer keeps what the calls before it wrote. The result is the writer after the run
and the error of the failing call, if one fails. -/
def Writer.putAll (w : Writer) : List Bytes → Writer × Option LibError
  | [] => (w, none)
  | p :: ps =>
    match w.write p with
    | .ok w' => w'.putAll ps
    | .error e => (w, some e)

/-- What a function that makes a run of `Write` calls returns: the writer when every call
succeeds, the error otherwise. The caller still holds the writer the run leaves. -/
def Writer.outcome : Writer × Option LibError → Except LibError Writer
  | (w, none) => .ok w
  | (_, some e) => .error e

/-- **The outcome does not depend on how the bytes are cut.** A run of `Write` calls returns
what one write of all their bytes returns, so an encoder written as one write of its bytes
returns what any run of calls writing those bytes returns. -/
lemma Writer.outcome_putAll (w : Writer) (ps : List Bytes) :
    Writer.outcome (w.putAll ps) = w.write ps.flatten := by
  induction ps generalizing w with
  | nil => rw [List.flatten_nil, write_nil]; rfl
  | cons p ps ih =>
    rw [List.flatten_cons, ← write_append]
    rcases hw : w.write p with e | w'
    · simp only [putAll, hw, outcome]; rfl
    · simp only [putAll, hw, ih]; rfl

/-- The writes of `ps` that a writer with room for `n` more bytes takes, in order, before the
first that does not fit. -/
def fitting (n : Nat) : List Bytes → List Bytes
  | [] => []
  | p :: ps => if p.length ≤ n then p :: fitting (n - p.length) ps else []

/-- The bytes of the first writes of a run come first among the bytes of the run. -/
lemma flatten_isPrefix_flatten {xs ys : List Bytes} (h : xs <+: ys) : xs.flatten <+: ys.flatten := by
  obtain ⟨t, rfl⟩ := h
  exact ⟨t.flatten, (List.flatten_append _ _).symm⟩

lemma fitting_isPrefix_self (n : Nat) (ps : List Bytes) : fitting n ps <+: ps := by
  induction ps generalizing n with
  | nil => exact List.prefix_refl _
  | cons p ps ih =>
    unfold fitting
    split_ifs
    · exact (List.prefix_cons_inj p).mpr (ih _)
    · exact List.nil_prefix

lemma length_flatten_fitting_le (n : Nat) (ps : List Bytes) : (fitting n ps).flatten.length ≤ n := by
  induction ps generalizing n with
  | nil => exact Nat.zero_le _
  | cons p ps ih =>
    unfold fitting
    split_ifs with h
    · have := ih (n - p.length)
      simp only [List.flatten_cons, List.length_append]
      omega
    · exact Nat.zero_le _

/-- Writes that fit together are all taken. -/
lemma fitting_append_of_le {xs : List Bytes} {n : Nat} (h : xs.flatten.length ≤ n) (ys : List Bytes) :
    fitting n (xs ++ ys) = xs ++ fitting (n - xs.flatten.length) ys := by
  induction xs generalizing n with
  | nil => rfl
  | cons p xs ih =>
    simp only [List.flatten_cons, List.length_append] at h
    rw [List.cons_append, fitting, if_pos (by omega), ih (by omega), List.flatten_cons, List.length_append,
      Nat.sub_sub]
    rfl

/-- **A fixed writer keeps the writes that fit.** A run of `Write` calls on a writer with room
for `n` more bytes leaves it holding its bytes and then the calls that fit, in order, up to
the first that does not; the run fails exactly when one does not fit, with
`io.ErrShortWrite`. -/
theorem Writer.putAll_fixed (buf : Bytes) (n : Nat) (ps : List Bytes) :
    (⟨buf, some n⟩ : Writer).putAll ps =
      (⟨buf ++ (fitting n ps).flatten, some (n - (fitting n ps).flatten.length)⟩,
        if ps.flatten.length ≤ n then none else some .shortWrite) := by
  induction ps generalizing buf n with
  | nil => simp [putAll, fitting]
  | cons p ps ih =>
    by_cases hp : p.length ≤ n
    · simp only [putAll, write, if_pos hp, ih, fitting, List.flatten_cons, List.append_assoc, List.length_append,
        Nat.sub_sub, Nat.le_sub_iff_add_le' hp]
    · simp only [putAll, write, if_neg hp, fitting, List.flatten_nil, List.append_nil, List.length_nil,
        Nat.sub_zero, List.flatten_cons, List.length_append]
      rw [if_neg (by omega)]

/-! ### Readers -/

/-- `io.ReadFull`: the next `n` bytes. It fails with `io.EOF` when nothing is left and with
`io.ErrUnexpectedEOF` when fewer than `n` bytes are. -/
def readFull (n : Nat) (r : Bytes) : Except LibError (Bytes × Bytes) :=
  if n ≤ r.length then .ok (r.take n, r.drop n)
  else if r = [] then .error .eof else .error .unexpectedEOF

lemma readFull_append (p rest : Bytes) : readFull p.length (p ++ rest) = .ok (p, rest) := by
  simp [readFull]

lemma length_of_readFull {n : Nat} {r p r' : Bytes} (h : readFull n r = .ok (p, r')) : p.length = n := by
  unfold readFull at h
  split_ifs at h with hn
  cases h
  simpa using hn

lemma readFull_sound {n : Nat} {r p r' : Bytes} (h : readFull n r = .ok (p, r')) : r = p ++ r' := by
  unfold readFull at h
  split_ifs at h
  cases h
  exact (List.take_append_drop n r).symm

lemma readFull_failed {n : Nat} {r : Bytes} (h : r.length < n) : Failed (readFull n r) := by
  unfold readFull; split_ifs <;> first | omega | simp

/-! ### Codecs -/

/-- A wire codec: the bytes the writer puts for a value, and the reader that reads one
back, returning the rest of the stream. -/
structure Codec (α : Type) where
  write : α → Bytes
  read : Bytes → Except LibError (α × Bytes)

variable {α : Type}

/-- The reader inverts the writer on a stream: it reads the value back whatever follows,
leaving what follows, and fails on every strict prefix of the encoding. -/
structure Codec.Inverts (c : Codec α) : Prop where
  read_write : ∀ a rest, c.read (c.write a ++ rest) = .ok (a, rest)
  read_prefix : ∀ a n, n < (c.write a).length → Failed (c.read ((c.write a).take n))

/-- The reader reads back every value that satisfies `p`, whatever follows, leaving what
follows. It says nothing of the other values, nor of prefixes. -/
def Codec.ReadsBack (c : Codec α) (p : α → Prop) : Prop :=
  ∀ a rest, p a → c.read (c.write a ++ rest) = .ok (a, rest)

lemma Codec.Inverts.readsBack {c : Codec α} (h : c.Inverts) (p : α → Prop) : c.ReadsBack p :=
  fun a rest _ => h.read_write a rest

/-- The writer puts at most `n` bytes for any value. -/
def Codec.WidthLE (c : Codec α) (n : Nat) : Prop := ∀ a, (c.write a).length ≤ n

/-- The reader accepts only what the writer puts: a stream it reads a value from starts with
the value's encoding, and what it leaves is the rest. With `Inverts`, the bytes a reader
consumes and the values it returns are in one-to-one correspondence. -/
def Codec.Sound (c : Codec α) : Prop := ∀ {r a rest}, c.read r = .ok (a, rest) → r = c.write a ++ rest

/-- The reader reads the values `as` in order from `r`, leaving `r'`. -/
def Codec.ReadsAll (c : Codec α) : Bytes → List α → Bytes → Prop
  | r, [], r' => r = r'
  | r, a :: as, r' => ∃ r₁, c.read r = .ok (a, r₁) ∧ c.ReadsAll r₁ as r'

/-- The bytes the writer puts for a list of values, one after another. -/
def Codec.writeAll (c : Codec α) (as : List α) : Bytes := (as.map c.write).flatten

@[simp] lemma Codec.writeAll_nil (c : Codec α) : c.writeAll [] = [] := rfl
@[simp] lemma Codec.writeAll_cons (c : Codec α) (a : α) (as : List α) :
    c.writeAll (a :: as) = c.write a ++ c.writeAll as := rfl
lemma Codec.writeAll_append (c : Codec α) (as bs : List α) :
    c.writeAll (as ++ bs) = c.writeAll as ++ c.writeAll bs := by
  simp [writeAll]

lemma Codec.length_writeAll_le {c : Codec α} {n : Nat} (h : c.WidthLE n) (as : List α) :
    (c.writeAll as).length ≤ as.length * n := by
  induction as with
  | nil => simp
  | cons a as ih =>
    simp only [writeAll_cons, List.length_append, List.length_cons, Nat.succ_mul]
    have := h a; omega

/-- A reader that reads a value and then goes on with `f` fails on every strict prefix of the
value's encoding followed by `t`, when `f` fails on every strict prefix of `t`. -/
lemma Codec.Inverts.read_bind_prefix {β : Type} {c : Codec α} (h : c.Inverts) {a : α} {t : Bytes}
    {f : α × Bytes → Except LibError β} (hf : ∀ k < t.length, Failed (f (a, t.take k))) {n : Nat}
    (hn : n < (c.write a ++ t).length) : Failed (c.read ((c.write a ++ t).take n) >>= f) := by
  rw [List.take_append_eq_append_take]
  by_cases hlt : n < (c.write a).length
  · rw [Nat.sub_eq_zero_of_le hlt.le, List.take_zero, List.append_nil]
    exact failed_bind (h.read_prefix a n hlt)
  · rw [List.take_of_length_le (by omega), h.read_write, ok_bind]
    exact hf _ (by rw [List.length_append] at hn; omega)

lemma Codec.readsAll_writeAll {c : Codec α} (h : c.Inverts) (as : List α) (rest : Bytes) :
    c.ReadsAll (c.writeAll as ++ rest) as rest := by
  induction as with
  | nil => rfl
  | cons a as ih => exact ⟨_, by rw [writeAll_cons, List.append_assoc, h.read_write], ih⟩

lemma Codec.readsAll_sound {c : Codec α} (h : c.Sound) {r r' : Bytes} {as : List α}
    (hr : c.ReadsAll r as r') : r = c.writeAll as ++ r' := by
  induction as generalizing r with
  | nil => exact hr
  | cons a as ih =>
    obtain ⟨r₁, h₁, hrest⟩ := hr
    rw [h h₁, ih hrest, writeAll_cons, List.append_assoc]

/-! ### A reference codec

Eight bytes, most significant first. It meets the codec laws with a bounded width, and is
sound, so the laws are not contradictory; it stands in for `WriteVarInt`/`ReadVarInt` where a concrete
codec is needed. -/

/-- The `k` low base-256 digits of `n`, most significant first. -/
def bigEndian : Nat → Nat → Bytes
  | 0, _ => []
  | k + 1, n => bigEndian k (n / 256) ++ [UInt8.ofNat (n % 256)]

/-- The number a big-endian digit string spells. -/
def ofBigEndian (bs : Bytes) : Nat := bs.foldl (fun acc b => acc * 256 + b.toNat) 0

@[simp] lemma length_bigEndian (k n : Nat) : (bigEndian k n).length = k := by
  induction k generalizing n <;> simp [bigEndian, *]

lemma ofBigEndian_bigEndian (k n : Nat) : ofBigEndian (bigEndian k n) = n % 256 ^ k := by
  induction k generalizing n with
  | zero => simp [bigEndian, ofBigEndian, Nat.mod_one]
  | succ k ih =>
    have hd : (UInt8.ofNat (n % 256)).toNat = n % 256 :=
      UInt8.toNat_ofNat_of_lt (Nat.mod_lt _ (by decide))
    have ih' := ih (n / 256)
    simp only [ofBigEndian] at ih' ⊢
    rw [bigEndian, List.foldl_append, ih', List.foldl_cons, List.foldl_nil, hd, Nat.pow_succ',
      Nat.mod_mul]
    omega

def be64 : Codec UInt64 where
  write v := bigEndian 8 v.toNat
  read r := (readFull 8 r).map fun p => (UInt64.ofNat (ofBigEndian p.1), p.2)

lemma be64_inverts : be64.Inverts where
  read_write v rest := by
    have h8 : v.toNat % 256 ^ 8 = v.toNat := Nat.mod_eq_of_lt v.toNat_lt_size
    have hv := ofNat_toNat_uint64 v
    have hr := readFull_append (bigEndian 8 v.toNat) rest
    rw [length_bigEndian] at hr
    simp only [be64, hr, Except.map, ofBigEndian_bigEndian, h8, hv]
  read_prefix v n hn := by
    simp only [be64, length_bigEndian] at hn ⊢
    obtain ⟨e, he⟩ := readFull_failed (show ((bigEndian 8 v.toNat).take n).length < 8 by simp; omega)
    exact ⟨e, by simp [he, Except.map]⟩

lemma be64_width : be64.WidthLE 8 := fun v => by simp [be64]

lemma ofBigEndian_append (bs : Bytes) (b : UInt8) :
    ofBigEndian (bs ++ [b]) = ofBigEndian bs * 256 + b.toNat := by
  simp [ofBigEndian, List.foldl_append]

lemma ofBigEndian_lt (bs : Bytes) : ofBigEndian bs < 256 ^ bs.length := by
  induction bs using List.reverseRecOn with
  | nil => simp [ofBigEndian]
  | append_singleton bs b ih =>
    rw [ofBigEndian_append, List.length_append, List.length_singleton, Nat.pow_succ]
    have := b.toNat_lt
    omega

/-- Spelling out the number a digit string spells gives the string back. -/
lemma bigEndian_ofBigEndian (bs : Bytes) : bigEndian bs.length (ofBigEndian bs) = bs := by
  induction bs using List.reverseRecOn with
  | nil => rfl
  | append_singleton bs b ih =>
    have hb := b.toNat_lt
    have h1 : (ofBigEndian bs * 256 + b.toNat) / 256 = ofBigEndian bs := by omega
    have h2 : (ofBigEndian bs * 256 + b.toNat) % 256 = b.toNat := by omega
    rw [ofBigEndian_append, List.length_append, List.length_singleton, bigEndian, h1, h2, ih]
    congr
    exact UInt8.toNat.inj (UInt8.toNat_ofNat_of_lt hb)

lemma be64_sound : be64.Sound := by
  intro r v rest h
  rcases hf : readFull 8 r with e | ⟨p, r'⟩
  · simp [be64, hf, Except.map] at h
  simp only [be64, hf, Except.map, Except.ok.injEq, Prod.mk.injEq] at h
  obtain ⟨rfl, rfl⟩ := h
  have hl := length_of_readFull hf
  have hlt : ofBigEndian p < UInt64.size := (ofBigEndian_lt p).trans_eq (by rw [hl]; rfl)
  simp only [be64, UInt64.toNat_ofNat_of_lt hlt, ← hl, bigEndian_ofBigEndian]
  exact readFull_sound hf

end BmutilProofs.Stream

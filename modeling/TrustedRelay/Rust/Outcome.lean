import TrustedRelay.Rust.Text

/-!
# Fallible and panicking computations

`Result<T, E>` is `Except E T`. A function that also indexes slices can abort, which no caller
can observe as a value: it is modelled in `Outcome E T`, whose errors are either the function's
own `E` or a panic. The slice operations of the source are defined here in both forms, the
checked `get(i..j)` and the panicking `[i..j]`, together with fixed-size arrays and the
little-endian integer reads.
-/

namespace TrustedRelay

/-! ### Results -/

/-- The `?` operator: a composed computation succeeds exactly when both parts do. -/
theorem Except.bind_eq_ok_iff {ε α β : Type} {x : Except ε α} {f : α → Except ε β} {b : β} :
    x >>= f = .ok b ↔ ∃ a, x = .ok a ∧ f a = .ok b := by
  cases x with
  | error e => simp [bind, Except.bind]
  | ok a => simp [bind, Except.bind]

theorem exists_unit_iff {p : Unit → Prop} : (∃ u, p u) ↔ p () := Unique.exists_iff

/-- The `?` operator on a check. -/
theorem Except.unit_bind_eq_ok_iff {ε β : Type} {x : Except ε Unit} {f : Unit → Except ε β}
    {b : β} : x >>= f = .ok b ↔ x = .ok () ∧ f () = .ok b := by
  rw [Except.bind_eq_ok_iff, exists_unit_iff]

/-- `Option::ok_or`. -/
def okOr {ε α : Type} (o : Option α) (e : ε) : Except ε α :=
  match o with
  | some a => .ok a
  | none => .error e

@[simp] theorem okOr_eq_ok_iff {ε α : Type} {o : Option α} {e : ε} {a : α} :
    okOr o e = .ok a ↔ o = some a := by
  cases o <;> simp [okOr]

/-- `Result::map_err`. -/
@[simp] theorem Except.mapError_eq_ok_iff {ε ε' α : Type} {f : ε → ε'} {x : Except ε α} {a : α} :
    x.mapError f = .ok a ↔ x = .ok a := by
  cases x <;> simp [Except.mapError]

/-- A guard that fails with `e`. -/
def ensure {ε : Type} (p : Prop) [Decidable p] (e : ε) : Except ε Unit :=
  if p then .ok () else .error e

@[simp] theorem ensure_eq_ok_iff {ε : Type} {p : Prop} [Decidable p] {e : ε} {u : Unit} :
    ensure p e = .ok u ↔ p := by
  by_cases h : p <;> simp [ensure, h]

/-! The errors of a composed computation are those of its parts. -/

theorem Except.bind_eq_error_iff {ε α β : Type} {x : Except ε α} {f : α → Except ε β} {e : ε} :
    x >>= f = .error e ↔ x = .error e ∨ ∃ a, x = .ok a ∧ f a = .error e := by
  cases x with
  | error e => simp [bind, Except.bind]
  | ok a => simp [bind, Except.bind]

theorem okOr_eq_error_iff {ε α : Type} {o : Option α} {e e' : ε} :
    okOr o e = .error e' ↔ o = none ∧ e = e' := by
  cases o <;> simp [okOr]

theorem Except.mapError_eq_error_iff {ε ε' α : Type} {f : ε → ε'} {x : Except ε α} {e : ε'} :
    x.mapError f = .error e ↔ ∃ e', x = .error e' ∧ f e' = e := by
  cases x <;> simp [Except.mapError]

theorem ensure_eq_error_iff {ε : Type} {p : Prop} [Decidable p] {e e' : ε} :
    ensure p e = .error e' ↔ ¬p ∧ e = e' := by
  by_cases h : p <;> simp [ensure, h]

/-- A loop of checks succeeds exactly when every check does. -/
theorem forM_eq_ok_iff {ε α : Type} {l : List α} {f : α → Except ε Unit} :
    forM l f = .ok () ↔ ∀ a ∈ l, f a = .ok () := by
  induction l with
  | nil => exact iff_of_true rfl (by simp)
  | cons a l ih =>
    rw [List.forM_cons, Except.unit_bind_eq_ok_iff, List.forall_mem_cons, ih]

/-- Loop rule for a fallible fold: a property of the processed elements and the accumulator
that holds at the start and that every successful step extends holds at the end. -/
theorem foldlM_invariant {ε α β : Type} {f : β → α → Except ε β} (I : List α → β → Prop)
    {l : List α} {b b' : β} (hinit : I [] b)
    (hstep : ∀ pre a s s', a ∈ l → I pre s → f s a = .ok s' → I (pre ++ [a]) s')
    (h : l.foldlM f b = .ok b') : I l b' := by
  have key : ∀ (rest pre : List α) (s : β), pre ++ rest = l → I pre s →
      rest.foldlM f s = .ok b' → I l b' := by
    intro rest
    induction rest with
    | nil =>
      intro pre s hl hI hrun
      rw [List.foldlM_nil] at hrun
      rw [← hl, List.append_nil, ← Except.ok.inj hrun]
      exact hI
    | cons a rest ih =>
      intro pre s hl hI hrun
      rw [List.foldlM_cons, Except.bind_eq_ok_iff] at hrun
      obtain ⟨s', hs', hrest⟩ := hrun
      have ha : a ∈ l := by simp [← hl]
      exact ih (pre ++ [a]) s' (by simpa using hl) (hstep pre a s s' ha hI hs') hrest
  exact key l [] b rfl hinit h

/-- A fold of steps that succeed whatever was collected before succeeds. -/
theorem foldlM_isOk {ε α β : Type} {f : β → α → Except ε β} {l : List α}
    (h : ∀ a ∈ l, ∀ b, ∃ b', f b a = .ok b') (b : β) : ∃ b', l.foldlM f b = .ok b' := by
  induction l generalizing b with
  | nil => exact ⟨b, rfl⟩
  | cons a l ih =>
    obtain ⟨b', hb'⟩ := h a (List.mem_cons_self ..) b
    obtain ⟨b'', hb''⟩ := ih (fun x hx => h x (List.mem_cons_of_mem _ hx)) b'
    exact ⟨b'', by rw [List.foldlM_cons, hb']; exact hb''⟩

/-! ### Panics -/

/-- Why a computation stopped: its own error, or a panic. -/
inductive Fault (ε : Type)
  | err (e : ε)
  | panic
deriving DecidableEq, Repr

/-- A fallible computation that may panic. -/
abbrev Outcome (ε α : Type) := Except (Fault ε) α

/-- A result of a function that cannot panic, inside one that can. -/
def Outcome.lift {ε α : Type} : Except ε α → Outcome ε α
  | .ok a => .ok a
  | .error e => .error (.err e)

@[simp] theorem Outcome.lift_eq_ok_iff {ε α : Type} {x : Except ε α} {a : α} :
    Outcome.lift x = .ok a ↔ x = .ok a := by
  cases x <;> simp [Outcome.lift]

/-- `map_err` around a computation that may panic. -/
def Outcome.mapErr {ε ε' α : Type} (f : ε → ε') : Outcome ε α → Outcome ε' α
  | .ok a => .ok a
  | .error (.err e) => .error (.err (f e))
  | .error .panic => .error .panic

@[simp] theorem Outcome.mapErr_eq_ok_iff {ε ε' α : Type} {f : ε → ε'} {x : Outcome ε α} {a : α} :
    Outcome.mapErr f x = .ok a ↔ x = .ok a := by
  match x with
  | .ok b => simp [Outcome.mapErr]
  | .error (.err e) => exact iff_of_false nofun nofun
  | .error .panic => exact iff_of_false nofun nofun

/-- The computation does not panic. -/
def Outcome.Safe {ε α : Type} (x : Outcome ε α) : Prop := x ≠ .error .panic

theorem Outcome.safe_ok {ε α : Type} {a : α} : Safe (.ok a : Outcome ε α) := nofun

theorem Outcome.safe_err {ε α : Type} {e : ε} : Safe (.error (.err e) : Outcome ε α) := nofun

theorem Outcome.safe_lift {ε α : Type} {x : Except ε α} : Safe (lift x) := by
  cases x with
  | ok a => exact safe_ok
  | error e => exact safe_err

/-- Safe steps compose; the second one may rely on the first one's result. -/
theorem Outcome.Safe.bind {ε α β : Type} {x : Outcome ε α} {f : α → Outcome ε β} (hx : Safe x)
    (hf : ∀ a, x = .ok a → Safe (f a)) : Safe (x >>= f) := by
  match x, hx, hf with
  | .ok a, _, hf => exact hf a rfl
  | .error (.err _), _, _ => exact safe_err

theorem Outcome.safe_bind_iff {ε α β : Type} {x : Outcome ε α} {f : α → Outcome ε β} :
    Safe (x >>= f) ↔ Safe x ∧ ∀ a, x = .ok a → Safe (f a) := by
  refine ⟨fun h => ?_, fun h => h.1.bind h.2⟩
  match x, h with
  | .ok a, h => exact ⟨safe_ok, fun b hb => Except.ok.inj hb ▸ h⟩
  | .error (.err _), _ => exact ⟨safe_err, nofun⟩
  | .error .panic, h => exact absurd rfl h

/-! ### Slices and arrays -/

/-- `xs[i]`, which panics outside the slice. -/
def indexAt {ε α : Type} (xs : List α) (i : ℕ) : Outcome ε α :=
  match xs[i]? with
  | some a => .ok a
  | none => .error .panic

theorem indexAt_eq_ok {ε α : Type} {xs : List α} {i : ℕ} (h : i < xs.length) :
    (indexAt xs i : Outcome ε α) = .ok xs[i] := by
  rw [indexAt, List.getElem?_eq_getElem h]

/-- `[u8; n]`. -/
abbrev ByteArr (n : ℕ) : Type := { b : Bytes // b.length = n }

/-- `[x; n]`. -/
def ByteArr.fill (n : ℕ) (x : UInt8) : ByteArr n := ⟨List.replicate n x, List.length_replicate⟩

namespace Bytes

/-- The bytes from `i` up to, and not including, `j`. -/
def range (b : Bytes) (i j : ℕ) : Bytes := (b.drop i).take (j - i)

/-- `b.get(i..j)`. -/
def get (b : Bytes) (i j : ℕ) : Option Bytes :=
  if i ≤ j ∧ j ≤ b.length then some (range b i j) else none

/-- `&b[i..j]`, which panics outside the slice. -/
def index {ε : Type} (b : Bytes) (i j : ℕ) : Outcome ε Bytes :=
  if i ≤ j ∧ j ≤ b.length then .ok (range b i j) else .error .panic

/-- `try_into().unwrap()` and `copy_from_slice`: the slice must have the array's length. -/
def toArr {ε : Type} (n : ℕ) (b : Bytes) : Outcome ε (ByteArr n) :=
  if h : b.length = n then .ok ⟨b, h⟩ else .error .panic

/-- `b.chunks_exact(n)`: an incomplete chunk at the end is left out. -/
def chunksExact (n : ℕ) (b : Bytes) : List Bytes :=
  (List.range (b.length / n)).map fun i => range b (n * i) (n * i + n)

/-- `try_into`, with the error that a slice of another length gives. -/
def tryInto {ε : Type} (n : ℕ) (b : Bytes) (e : ε) : Except ε (ByteArr n) :=
  if h : b.length = n then .ok ⟨b, h⟩ else .error e

/-- A field of known length, copied into an array. -/
def array {ε : Type} (n : ℕ) (b : Bytes) (i : ℕ) : Outcome ε (ByteArr n) := do
  toArr n (← index b i (i + n))

/-- `from_le_bytes`. -/
def le (b : Bytes) : ℕ := b.foldr (fun x n => x.toNat + 256 * n) 0

/-- `to_le_bytes` of an `n`-byte integer. -/
def toLe (n k : ℕ) : Bytes := (List.range n).map fun i => UInt8.ofNat (k / 256 ^ i)

theorem length_range {b : Bytes} {i j : ℕ} (hij : i ≤ j) (hj : j ≤ b.length) :
    (range b i j).length = j - i := by
  simp only [range, List.length_take, List.length_drop]
  omega

theorem index_eq_ok {ε : Type} {b : Bytes} {i j : ℕ} (hij : i ≤ j) (hj : j ≤ b.length) :
    (index b i j : Outcome ε Bytes) = .ok (range b i j) :=
  if_pos ⟨hij, hj⟩

theorem get_eq_some {b : Bytes} {i j : ℕ} (hij : i ≤ j) (hj : j ≤ b.length) :
    get b i j = some (range b i j) :=
  if_pos ⟨hij, hj⟩

theorem length_of_mem_chunksExact {n : ℕ} {b chunk : Bytes} (h : chunk ∈ chunksExact n b) :
    chunk.length = n := by
  obtain ⟨i, hi, rfl⟩ := List.mem_map.mp h
  have hle : n * i + n ≤ b.length := by
    calc n * i + n = n * (i + 1) := (Nat.mul_succ n i).symm
      _ ≤ n * (b.length / n) := Nat.mul_le_mul_left n (List.mem_range.mp hi)
      _ ≤ b.length := Nat.mul_div_le b.length n
  rw [length_range (Nat.le_add_right _ _) hle, Nat.add_sub_cancel_left]

/-- A little-endian number fits its bytes. -/
theorem le_lt (b : Bytes) : le b < 256 ^ b.length := by
  induction b with
  | nil => exact Nat.one_pos
  | cons x b ih =>
    have hx : x.toNat < 256 := x.toNat_lt
    have hcons : le (x :: b) = x.toNat + 256 * le b := rfl
    rw [hcons, List.length_cons, pow_succ]
    omega

theorem toLe_succ (n k : ℕ) : toLe (n + 1) k = UInt8.ofNat k :: toLe n (k / 256) := by
  have hdiv : ∀ i, k / 256 ^ (i + 1) = k / 256 / 256 ^ i := by
    intro i
    rw [Nat.pow_succ', Nat.div_div_eq_div_mul]
  simp [toLe, List.range_succ_eq_map, Function.comp_def, hdiv]

theorem length_toLe (n k : ℕ) : (toLe n k).length = n := by
  rw [toLe, List.length_map, List.length_range]

/-- A number that fits is read back. -/
theorem le_toLe {n k : ℕ} (h : k < 256 ^ n) : le (toLe n k) = k := by
  induction n generalizing k with
  | zero => exact (Nat.lt_one_iff.mp h).symm
  | succ n ih =>
    have hq : k / 256 < 256 ^ n := Nat.div_lt_of_lt_mul (by rwa [Nat.pow_succ'] at h)
    have hcons : le (UInt8.ofNat k :: toLe n (k / 256)) =
        (UInt8.ofNat k).toNat + 256 * le (toLe n (k / 256)) := rfl
    rw [toLe_succ, hcons, ih hq, UInt8.toNat_ofNat', Nat.mod_add_div]

theorem range_append (a b c : Bytes) :
    range (a ++ b ++ c) a.length (a.length + b.length) = b := by
  rw [range, List.append_assoc, List.drop_left, Nat.add_sub_cancel_left, List.take_left]

theorem toArr_eq_ok {ε : Type} {n : ℕ} {b : Bytes} (h : b.length = n) :
    (toArr n b : Outcome ε (ByteArr n)) = .ok ⟨b, h⟩ :=
  dif_pos h

@[simp] theorem tryInto_eq_ok_iff {ε : Type} {n : ℕ} {b : Bytes} {e : ε} {a : ByteArr n} :
    tryInto n b e = .ok a ↔ b = a.1 := by
  rw [tryInto]
  split_ifs with h
  · rw [Except.ok.injEq, Subtype.ext_iff]
  · exact iff_of_false nofun fun hb => h (hb ▸ a.2)

theorem array_eq_ok {ε : Type} {n : ℕ} {b : Bytes} {i : ℕ} (h : i + n ≤ b.length) :
    (array n b i : Outcome ε (ByteArr n)) = .ok ⟨range b i (i + n),
      (length_range (Nat.le_add_right i n) h).trans (Nat.add_sub_cancel_left i n)⟩ := by
  rw [array, index_eq_ok (Nat.le_add_right i n) h]
  exact toArr_eq_ok _

/-- A range of a range. -/
theorem range_range {b : Bytes} {i j k l : ℕ} (h : i + l ≤ j) :
    range (range b i j) k l = range b (i + k) (i + l) := by
  rw [range, range, range, List.drop_take, List.drop_drop, List.take_take,
    Nat.add_sub_add_left, Nat.min_eq_left (by omega)]

/-- A slice of a slice. -/
theorem index_range {ε : Type} {b : Bytes} {m n i j : ℕ} (hn : n ≤ b.length) (hij : i ≤ j)
    (hj : m + j ≤ n) :
    (index (range b m n) i j : Outcome ε Bytes) = .ok (range b (m + i) (m + j)) := by
  have hlen : (range b m n).length = n - m := length_range (by omega) hn
  rw [index_eq_ok hij (by omega), range_range hj]

/-- The first chunk. -/
theorem chunksExact_append {n : ℕ} (hn : 0 < n) {chunk : Bytes} (h : chunk.length = n)
    (rest : Bytes) :
    chunksExact n (chunk ++ rest) = chunk :: chunksExact n rest := by
  have hdiv : (chunk ++ rest).length / n = rest.length / n + 1 := by
    rw [List.length_append, h, Nat.add_comm, Nat.add_div_right _ hn]
  rw [chunksExact, hdiv, List.range_succ_eq_map, List.map_cons, List.map_map, chunksExact]
  congr 1
  · rw [range, Nat.mul_zero, Nat.zero_add, List.drop_zero, Nat.sub_zero, List.take_left' h]
  · refine List.map_congr_left fun i _ => ?_
    rw [Function.comp_apply, Nat.succ_eq_add_one, Nat.mul_succ, range, range, Nat.add_sub_cancel_left,
      Nat.add_sub_cancel_left, Nat.add_comm (n * i) n, ← List.drop_drop, List.drop_left' h]

theorem length_chunksExact (n : ℕ) (b : Bytes) : (chunksExact n b).length = b.length / n := by
  rw [chunksExact, List.length_map, List.length_range]

theorem range_take {b : Bytes} {i j m : ℕ} (h : j ≤ m) : range (b.take m) i j = range b i j := by
  rw [range, range, List.drop_take, List.take_take, Nat.min_eq_left (Nat.sub_le_sub_right h i)]

theorem range_append_left {a b : Bytes} {n i j : ℕ} (h : a.length = n) (hj : j ≤ n) :
    range (a ++ b) i j = range a i j := by
  rw [← range_take hj, List.take_left' h]

/-- The chunks of a part at the start are the first chunks. -/
theorem chunksExact_take {n m : ℕ} {b : Bytes} (hm : m ≤ b.length) :
    chunksExact n (b.take m) = (chunksExact n b).take (m / n) := by
  have hle : m / n ≤ b.length / n := Nat.div_le_div_right hm
  rw [chunksExact, List.length_take, Nat.min_eq_left hm, chunksExact, ← List.map_take, List.take_range,
    Nat.min_eq_left hle]
  refine List.map_congr_left fun i hi => range_take ?_
  calc n * i + n = n * (i + 1) := (Nat.mul_succ n i).symm
    _ ≤ n * (m / n) := Nat.mul_le_mul_left n (List.mem_range.mp hi)
    _ ≤ m := Nat.mul_div_le m n

end Bytes

end TrustedRelay

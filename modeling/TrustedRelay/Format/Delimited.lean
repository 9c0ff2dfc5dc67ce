import Mathlib

/-!
# Unique decoding of delimited text

A text format that writes its fields between delimiters is decodable only as far as the fields
cannot imitate the delimiters. This file collects the three decoding steps, over an arbitrary
alphabet:

* `append_cons_inj_of_first` and `append_cons_inj_of_last`: a boundary element found by a
  predicate, from the front or from the back;
* `unlines_inj`: terminated lines, whose bodies do not hold the terminator;
* `append_inj_of_free`: a field that ends where one of several multi-symbol marks begins. All
  marks start with one symbol that does not recur in them, so two marks never overlap and a
  field that holds no mark ends at the first one.

A pattern is found on one side of a symbol that it does not have: `infix_append_cons_iff`.
-/

namespace TrustedRelay.Delimited

variable {α : Type*}

/-! ### Boundary elements -/

/-- Everything before the first element outside `P` is determined. -/
theorem append_cons_inj_of_first {P : α → Prop} {a a' b b' : List α} {y y' : α}
    (ha : ∀ x ∈ a, P x) (ha' : ∀ x ∈ a', P x) (hy : ¬P y) (hy' : ¬P y')
    (h : a ++ y :: b = a' ++ y' :: b') : a = a' ∧ y = y' ∧ b = b' := by
  induction a generalizing a' with
  | nil =>
    cases a' with
    | nil => simpa using h
    | cons x t =>
      obtain ⟨rfl, -⟩ := List.cons.inj h
      exact absurd (ha' y List.mem_cons_self) hy
  | cons x t ih =>
    cases a' with
    | nil =>
      obtain ⟨rfl, -⟩ := List.cons.inj h
      exact absurd (ha x List.mem_cons_self) hy'
    | cons x' t' =>
      obtain ⟨rfl, ht⟩ := List.cons.inj h
      obtain ⟨rfl, hyy, hbb⟩ := ih (fun z hz => ha z (List.mem_cons_of_mem _ hz))
        (fun z hz => ha' z (List.mem_cons_of_mem _ hz)) ht
      exact ⟨rfl, hyy, hbb⟩

/-- Everything after the last element outside `P` is determined. -/
theorem append_cons_inj_of_last {P : α → Prop} {a a' b b' : List α} {y y' : α}
    (hb : ∀ x ∈ b, P x) (hb' : ∀ x ∈ b', P x) (hy : ¬P y) (hy' : ¬P y')
    (h : a ++ y :: b = a' ++ y' :: b') : a = a' ∧ y = y' ∧ b = b' := by
  have hrev : b.reverse ++ y :: a.reverse = b'.reverse ++ y' :: a'.reverse := by
    simpa using congrArg List.reverse h
  obtain ⟨h1, h2, h3⟩ := append_cons_inj_of_first (by simpa using hb) (by simpa using hb')
    hy hy' hrev
  exact ⟨List.reverse_injective h3, h2, List.reverse_injective h1⟩

/-! ### Terminated lines -/

/-- Every line followed by the terminator `nl`. -/
def unlines (nl : α) (ls : List (List α)) : List α := ls.flatMap (· ++ [nl])

theorem mem_unlines_iff {c nl : α} (hc : c ≠ nl) {ls : List (List α)} :
    c ∈ unlines nl ls ↔ ∃ l ∈ ls, c ∈ l := by
  simp [unlines, hc]

/-- The pieces of a split do not hold the separator. -/
theorem not_mem_of_mem_splitOn [BEq α] [LawfulBEq α] {c : α} {s piece : List α}
    (h : piece ∈ s.splitOn c) : c ∉ piece := by
  induction s generalizing piece with
  | nil =>
    rw [List.splitOn_nil, List.mem_singleton] at h
    exact h ▸ List.not_mem_nil
  | cons x s ih =>
    rw [List.splitOn_cons_eq_if_modifyHead] at h
    split_ifs at h with hx
    · rcases List.mem_cons.mp h with rfl | hmem
      · exact List.not_mem_nil
      · exact ih hmem
    · -- the character joins the first piece of the rest
      obtain ⟨first, rest, heq⟩ := List.exists_cons_of_ne_nil (List.splitOn_ne_nil c s)
      rw [heq, List.modifyHead_cons] at h
      rcases List.mem_cons.mp h with rfl | hmem
      · rw [List.mem_cons, not_or]
        exact ⟨fun hcx => hx (beq_iff_eq.mpr hcx.symm), ih (heq ▸ List.mem_cons_self)⟩
      · exact ih (heq ▸ List.mem_cons_of_mem _ hmem)

@[simp] theorem unlines_nil (nl : α) : unlines nl [] = [] := rfl

@[simp] theorem unlines_cons (nl : α) (l : List α) (ls : List (List α)) :
    unlines nl (l :: ls) = l ++ nl :: unlines nl ls := by
  simp [unlines]

@[simp] theorem unlines_append (nl : α) (ls ms : List (List α)) :
    unlines nl (ls ++ ms) = unlines nl ls ++ unlines nl ms := by
  simp [unlines]

/-- The lines of a text, each terminated, are the text terminated. -/
theorem unlines_splitOn [BEq α] [LawfulBEq α] (nl : α) (s : List α) :
    unlines nl (s.splitOn nl) = s ++ [nl] := by
  induction s with
  | nil => simp [List.splitOn_nil]
  | cons x s ih =>
    rw [List.splitOn_cons_eq_if_modifyHead]
    split_ifs with hx
    · rw [unlines_cons, ih, eq_of_beq hx]
      rfl
    · obtain ⟨first, rest, heq⟩ := List.exists_cons_of_ne_nil (List.splitOn_ne_nil nl s)
      rw [heq, List.modifyHead_cons, unlines_cons, List.cons_append, ← unlines_cons, ← heq, ih]
      rfl

/-- Lines without the terminator are read back from their concatenation. -/
theorem unlines_inj {nl : α} {ls ls' : List (List α)} (h : ∀ l ∈ ls, nl ∉ l)
    (h' : ∀ l ∈ ls', nl ∉ l) (heq : unlines nl ls = unlines nl ls') : ls = ls' := by
  induction ls generalizing ls' with
  | nil =>
    cases ls' with
    | nil => rfl
    | cons l t => simp at heq
  | cons l t ih =>
    cases ls' with
    | nil => simp at heq
    | cons l' t' =>
      rw [unlines_cons, unlines_cons] at heq
      obtain ⟨rfl, -, ht⟩ := append_cons_inj_of_first (P := fun x => x ≠ nl)
        (fun x hx hxn => h l List.mem_cons_self (hxn ▸ hx))
        (fun x hx hxn => h' l' List.mem_cons_self (hxn ▸ hx)) (by simp) (by simp) heq
      rw [ih (fun m hm => h m (List.mem_cons_of_mem _ hm))
        (fun m hm => h' m (List.mem_cons_of_mem _ hm)) ht]

/-- Every terminated text is a concatenation of lines. -/
theorem exists_unlines_eq (nl : α) (t : List α) :
    ∃ ls : List (List α), (∀ l ∈ ls, nl ∉ l) ∧ unlines nl ls = t ++ [nl] := by
  induction t with
  | nil => exact ⟨[[]], by simp, by simp⟩
  | cons c t ih =>
    obtain ⟨ls, hls, heq⟩ := ih
    by_cases hc : c = nl
    · exact ⟨[] :: ls, by simpa using hls, by simp [heq, hc]⟩
    · cases ls with
      | nil => simp at heq
      | cons l ls =>
        refine ⟨(c :: l) :: ls, ?_, by simpa using heq⟩
        intro m hm
        rcases List.mem_cons.mp hm with rfl | hm
        · exact fun hmem => hls l List.mem_cons_self
            ((List.mem_cons.mp hmem).resolve_left (Ne.symm hc))
        · exact hls m (List.mem_cons_of_mem _ hm)

/-- Lines that hold terminators are a concatenation of more lines that do not. -/
theorem exists_lines_of_unlines (nl : α) (ls : List (List α)) :
    ∃ ms : List (List α), (∀ m ∈ ms, nl ∉ m) ∧ unlines nl ms = unlines nl ls := by
  induction ls with
  | nil => exact ⟨[], by simp, rfl⟩
  | cons l ls ih =>
    obtain ⟨ms, hms, heq⟩ := ih
    obtain ⟨ks, hks, hk⟩ := exists_unlines_eq nl l
    refine ⟨ks ++ ms, ?_, by simp [hk, heq]⟩
    intro m hm
    rcases List.mem_append.mp hm with hm | hm
    · exact hks m hm
    · exact hms m hm

/-! ### Marks -/

/-- A mark starts with the symbol `s` and does not hold it again. -/
def IsMark (s : α) (m : List α) : Prop := ∃ t, m = s :: t ∧ s ∉ t

/-- The text `a` holds none of the marks. -/
def Free (marks : List (List α)) (a : List α) : Prop := ∀ m ∈ marks, ¬m <:+: a

instance [DecidableEq α] (marks : List (List α)) (a : List α) : Decidable (Free marks a) :=
  inferInstanceAs (Decidable (∀ m ∈ marks, ¬m <:+: a))

/-- The text `r` is empty or starts with a mark. -/
def Opens (marks : List (List α)) (r : List α) : Prop := r = [] ∨ ∃ m ∈ marks, m <+: r

theorem opens_nil (marks : List (List α)) : Opens marks [] := Or.inl rfl

theorem opens_append {marks : List (List α)} {m : List α} (hm : m ∈ marks) (b : List α) :
    Opens marks (m ++ b) :=
  Or.inr ⟨m, hm, List.prefix_append m b⟩

/-- The overlap `c` of two decodings is empty: otherwise a mark starts inside the longer field,
and it either lies in that field or meets the next mark before it is complete. -/
private theorem overlap_eq_nil {s : α} {marks : List (List α)} (hmarks : ∀ m ∈ marks, IsMark s m)
    {a c r' : List α} (hfree : Free marks (a ++ c)) (hr : Opens marks (c ++ r'))
    (hr' : Opens marks r') : c = [] := by
  rcases hr with hnil | ⟨m, hm, b, hb⟩
  · exact (List.append_eq_nil_iff.mp hnil).1
  rcases List.append_eq_append_iff.mp hb with ⟨d, rfl, -⟩ | ⟨e, rfl, rfl⟩
  · exact absurd ((List.prefix_append m d).isInfix.trans (List.suffix_append a _).isInfix)
      (hfree m hm)
  cases c with
  | nil => rfl
  | cons x c =>
    obtain ⟨t, ht, hs⟩ := hmarks _ hm
    obtain ⟨rfl, rfl⟩ := List.cons.inj ht
    cases e with
    | nil =>
      exact absurd (by simpa using (List.suffix_append a (x :: c)).isInfix) (hfree _ hm)
    | cons y e =>
      rcases hr' with h | ⟨m', hm', b', hb'⟩
      · simp at h
      · obtain ⟨t', rfl, -⟩ := hmarks _ hm'
        obtain ⟨rfl, -⟩ := List.cons.inj hb'
        exact absurd (List.mem_append_right c List.mem_cons_self) hs

/-- A field without marks ends where the first mark begins. -/
theorem append_inj_of_free {s : α} {marks : List (List α)} (hmarks : ∀ m ∈ marks, IsMark s m)
    {a a' r r' : List α} (ha : Free marks a) (ha' : Free marks a') (hr : Opens marks r)
    (hr' : Opens marks r') (h : a ++ r = a' ++ r') : a = a' ∧ r = r' := by
  rcases List.append_eq_append_iff.mp h with ⟨c, rfl, rfl⟩ | ⟨c, rfl, rfl⟩
  · obtain rfl := overlap_eq_nil hmarks ha' hr hr'
    simp
  · obtain rfl := overlap_eq_nil hmarks ha hr' hr
    simp

/-- Two marks that start the same text are equal, if none is a proper start of another. -/
theorem mark_eq_of_append_eq {marks : List (List α)}
    (hpre : ∀ m ∈ marks, ∀ m' ∈ marks, m <+: m' → m = m') {m m' b b' : List α} (hm : m ∈ marks)
    (hm' : m' ∈ marks) (h : m ++ b = m' ++ b') : m = m' ∧ b = b' := by
  have heq : m = m' := by
    rcases List.append_eq_append_iff.mp h with ⟨c, hc, -⟩ | ⟨c, hc, -⟩
    · exact hpre m hm m' hm' (hc ▸ List.prefix_append m c)
    · exact (hpre m' hm' m hm (hc ▸ List.prefix_append m' c)).symm
  subst heq
  exact ⟨rfl, List.append_cancel_left h⟩

/-- A sequence of fields, each behind its mark. -/
def tagged (items : List (List α × List α)) : List α := items.flatMap fun i => i.1 ++ i.2

@[simp] theorem tagged_nil : tagged ([] : List (List α × List α)) = [] := rfl

@[simp] theorem tagged_cons (i : List α × List α) (items : List (List α × List α)) :
    tagged (i :: items) = i.1 ++ (i.2 ++ tagged items) := by
  simp [tagged]

theorem opens_tagged {marks : List (List α)} {items : List (List α × List α)}
    (h : ∀ i ∈ items, i.1 ∈ marks) : Opens marks (tagged items) := by
  cases items with
  | nil => exact opens_nil marks
  | cons i items =>
    rw [tagged_cons]
    exact opens_append (h i List.mem_cons_self) _

/-- A leading field and the marked fields after it are read back from their concatenation. -/
theorem append_tagged_inj {s : α} {marks : List (List α)} (hmarks : ∀ m ∈ marks, IsMark s m)
    (hpre : ∀ m ∈ marks, ∀ m' ∈ marks, m <+: m' → m = m')
    {a a' : List α} {items items' : List (List α × List α)} (ha : Free marks a)
    (ha' : Free marks a') (hi : ∀ i ∈ items, i.1 ∈ marks ∧ Free marks i.2)
    (hi' : ∀ i ∈ items', i.1 ∈ marks ∧ Free marks i.2)
    (h : a ++ tagged items = a' ++ tagged items') : a = a' ∧ items = items' := by
  induction items generalizing a a' items' with
  | nil =>
    obtain ⟨rfl, htag⟩ := append_inj_of_free hmarks ha ha' (opens_nil marks)
      (opens_tagged fun i hm => (hi' i hm).1) h
    cases items' with
    | nil => exact ⟨rfl, rfl⟩
    | cons i' items' =>
      obtain ⟨t, ht, -⟩ := hmarks _ (hi' i' List.mem_cons_self).1
      simp [ht] at htag
  | cons i items ih =>
    obtain ⟨rfl, htag⟩ := append_inj_of_free hmarks ha ha'
      (opens_tagged fun i hm => (hi i hm).1) (opens_tagged fun i hm => (hi' i hm).1) h
    cases items' with
    | nil =>
      obtain ⟨t, ht, -⟩ := hmarks _ (hi i List.mem_cons_self).1
      simp [ht] at htag
    | cons i' items' =>
      obtain ⟨hm, hf⟩ := hi i List.mem_cons_self
      obtain ⟨hm', hf'⟩ := hi' i' List.mem_cons_self
      rw [tagged_cons, tagged_cons] at htag
      obtain ⟨hmark, hrest⟩ := mark_eq_of_append_eq hpre hm hm' htag
      obtain ⟨hbody, hitems⟩ := ih hf hf' (fun j hj => hi j (List.mem_cons_of_mem _ hj))
        (fun j hj => hi' j (List.mem_cons_of_mem _ hj)) hrest
      exact ⟨rfl, by rw [hitems, Prod.ext hmark hbody]⟩

/-- Tagged lines after a first line: each tag with the line break before it is a mark. -/
theorem unlines_cons_map_eq (nl : α) (l : List α) (items : List (List α × List α)) :
    unlines nl (l :: items.map fun i => i.1 ++ i.2) =
      l ++ tagged (items.map fun i => (nl :: i.1, i.2)) ++ [nl] := by
  induction items generalizing l with
  | nil => simp
  | cons i items ih =>
    have htail := ih (i.1 ++ i.2)
    rw [unlines_cons, List.map_cons, htail]
    simp

/-! ### Patterns and symbols -/

section Infix

variable {p a b : List α} {x : α}

/-- A text without the first symbol of the pattern only moves the pattern on. -/
theorem infix_append_iff_of_not_mem (h : x ∉ a) : x :: p <:+: a ++ b ↔ x :: p <:+: b := by
  induction a with
  | nil => rfl
  | cons y a ih =>
    rw [List.mem_cons, not_or] at h
    rw [List.cons_append, List.infix_cons_iff, ih h.2, List.cons_prefix_cons]
    exact or_iff_right fun hxy => h.1 hxy.1

/-- A pattern without a symbol ends before the symbol. -/
theorem prefix_append_cons_iff (h : x ∉ p) : p <+: a ++ x :: b ↔ p <+: a := by
  refine ⟨fun hpre => ?_, fun hpre => hpre.trans (List.prefix_append _ _)⟩
  rcases List.prefix_or_prefix_of_prefix hpre (List.prefix_append a (x :: b)) with hp | ⟨t, rfl⟩
  · exact hp
  · cases t with
    | nil => rw [List.append_nil]
    | cons y t =>
      rw [List.prefix_append_right_inj, List.cons_prefix_cons] at hpre
      exact absurd (hpre.1 ▸ List.mem_append_right a List.mem_cons_self) h

/-- A pattern without a symbol occurs before the symbol or behind it. -/
theorem infix_append_cons_iff (h : x ∉ p) : p <:+: a ++ x :: b ↔ p <:+: a ∨ p <:+: b := by
  induction a with
  | nil =>
    have hpre := prefix_append_cons_iff (a := []) (b := b) h
    rw [List.nil_append] at hpre ⊢
    rw [List.infix_cons_iff, hpre, List.prefix_nil, List.infix_nil]
  | cons y a ih =>
    have hpre := prefix_append_cons_iff (a := y :: a) (b := b) h
    rw [List.cons_append] at hpre ⊢
    rw [List.infix_cons_iff, hpre, ih, List.infix_cons_iff, or_assoc]

end Infix

/-! ### Texts without marks -/

/-- Joining two mark-free texts by a separator that shares no symbol with the marks, except
possibly after its first one, creates no mark. -/
theorem Free.append_sep {s x : α} {marks : List (List α)} (hmarks : ∀ m ∈ marks, IsMark s m)
    {a b sep : List α} (ha : Free marks a) (hb : Free marks b) (hx : ∀ m ∈ marks, x ∉ m)
    (hs : s ∉ sep) : Free marks (a ++ x :: (sep ++ b)) := by
  intro m hm hinf
  rcases (infix_append_cons_iff (hx m hm)).mp hinf with h | h
  · exact ha m hm h
  · obtain ⟨t, rfl, -⟩ := hmarks m hm
    exact hb _ hm ((infix_append_iff_of_not_mem hs).mp h)

/-- Equal images of lists on which the function is injective. -/
theorem map_inj_of_mem {β : Type*} {f : α → β} {l l' : List α}
    (hf : ∀ a ∈ l, ∀ a' ∈ l', f a = f a' → a = a') (h : l.map f = l'.map f) : l = l' := by
  induction l generalizing l' with
  | nil => simpa [eq_comm] using h
  | cons a l ih =>
    cases l' with
    | nil => simp at h
    | cons a' l' =>
      obtain ⟨h1, h2⟩ := List.cons.inj h
      rw [hf a List.mem_cons_self a' List.mem_cons_self h1,
        ih (fun b hb b' hb' => hf b (List.mem_cons_of_mem _ hb) b' (List.mem_cons_of_mem _ hb')) h2]

end TrustedRelay.Delimited

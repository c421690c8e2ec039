import FencedCode.Text.Span
import Mathlib.Data.List.Forall2

/-!
# What readers give

One law for each way to put readers together: what the whole takes from a text, from what its parts
take. Where reading is to invert writing, `Reader.many_flatMap` is the one induction: a reader that
takes back each thing that was written takes back all of them, up to what it refuses. Where that
depends on what follows a thing, or gives something other than the thing that was written, it is
`Reader.many_flatMap_of_follow`.
-/
namespace FencedCode

namespace Reader

variable {α β : Type} {p : Reader α} {q : Reader β} {s s' r : Text} {a : α} {b : β} {c : Char}

/-! ## One character -/

theorem run_char_cons {ok : Char → Bool} (h : ok c = true) (r : Text) :
    (char ok).run (c :: r) = some (c, r) :=
  if_pos h

theorem run_char_cons_of_not {ok : Char → Bool} (h : ok c = false) (r : Text) :
    (char ok).run (c :: r) = none :=
  if_neg (Bool.eq_false_iff.mp h)

theorem run_exactly (c : Char) (r : Text) : (exactly c).run (c :: r) = some (c, r) :=
  run_char_cons (beq_self_eq_true c) r

theorem run_exactly_of_ne {d : Char} (h : d ≠ c) (r : Text) : (exactly c).run (d :: r) = none := by
  have hne : (d == c) = false := beq_false_of_ne h
  exact if_neg (Bool.eq_false_iff.mp hne)

/-! ## One after the other -/

/-- Two readers in a row take what the first and then the second takes. -/
theorem run_seq (hp : p.run s = some (a, s')) (hq : q.run s' = some (b, r)) :
    (p.seq q).run s = some ((a, b), r) := by
  simp [seq, hp, hq]

theorem run_seq_of_none (hp : p.run s = none) : (p.seq q).run s = none := by
  simp [seq, hp]

/-- They also fail if the second does, although the first has read something. -/
theorem run_seq_of_some_none (hp : p.run s = some (a, s')) (hq : q.run s' = none) :
    (p.seq q).run s = none := by
  simp [seq, hp, hq]

/-- A value that is accepted is passed on in its new form. -/
theorem run_filterMap {f : α → Option β} (hp : p.run s = some (a, r)) (hf : f a = some b) :
    (p.filterMap f).run s = some (b, r) := by
  simp [filterMap, hp, hf]

theorem run_filterMap_of_none {f : α → Option β} (hp : p.run s = some (a, r)) (hf : f a = none) :
    (p.filterMap f).run s = none := by
  simp [filterMap, hp, hf]

/-- A function of what is read changes nothing of what is taken. -/
theorem run_map (f : α → β) (hp : p.run s = some (a, r)) : (p.map f).run s = some (f a, r) :=
  run_filterMap hp rfl

theorem run_map_of_none (f : α → β) (hp : p.run s = none) : (p.map f).run s = none := by
  simp [map, filterMap, hp]

theorem run_left (hp : p.run s = some (a, s')) (hq : q.run s' = some (b, r)) :
    (p.left q).run s = some (a, r) :=
  run_map _ (run_seq hp hq)

theorem run_left_of_none (hp : p.run s = none) : (p.left q).run s = none :=
  run_map_of_none _ (run_seq_of_none hp)

theorem run_left_of_some_none (hp : p.run s = some (a, s')) (hq : q.run s' = none) :
    (p.left q).run s = none :=
  run_map_of_none _ (run_seq_of_some_none hp hq)

theorem run_right (hp : p.run s = some (a, s')) (hq : q.run s' = some (b, r)) :
    (p.right q).run s = some (b, r) :=
  run_map _ (run_seq hp hq)

theorem run_right_of_none (hp : p.run s = none) : (p.right q).run s = none :=
  run_map_of_none _ (run_seq_of_none hp)

theorem run_right_of_some_none (hp : p.run s = some (a, s')) (hq : q.run s' = none) :
    (p.right q).run s = none :=
  run_map_of_none _ (run_seq_of_some_none hp hq)

/-! ## One or the other -/

/-- The first of two readers is the one that counts if it can read. -/
theorem run_orElse_left {q : Reader α} (hp : p.run s = some (a, r)) :
    (p <|> q).run s = some (a, r) := by
  show (p.run s).orElse _ = _
  rw [hp]
  rfl

/-- Otherwise the second starts where the first did. -/
theorem run_orElse_right {q : Reader α} (hp : p.run s = none) : (p <|> q).run s = q.run s := by
  show (p.run s).orElse _ = _
  rw [hp]
  rfl

/-! ## Again and again -/

/-- One item, then as many others as there are. -/
theorem run_andMany (hp : p.run s = some (a, s')) {bs : List β} (hq : q.many s' = (bs, r)) :
    (p.andMany q).run s = some ((a, bs), r) := by
  simp [andMany, hp, hq]

theorem run_andMany_of_none (hp : p.run s = none) : (p.andMany q).run s = none := by
  simp [andMany, hp]

/-- Items in a row, one at least. -/
theorem run_oneOrMore (hp : p.run s = some (a, s')) {as : List α} (hq : p.many s' = (as, r)) :
    p.oneOrMore.run s = some (a :: as, r) :=
  run_map _ (run_andMany hp hq)

/-- Items with a separator before each but the first. -/
theorem run_sepBy {separator : Reader β} (hp : p.run s = some (a, s')) {as : List α}
    (hq : (separator.right p).many s' = (as, r)) :
    (p.sepBy separator).run s = some (a :: as, r) :=
  run_map _ (run_andMany hp hq)

/-- What was written thing by thing is read so, up to what is refused. -/
theorem many_flatMap {write : α → Text} {things : List α} {rest : Text}
    (h : ∀ a ∈ things, ∀ r, p.run (write a ++ r) = some (a, r)) (hrest : p.run rest = none) :
    p.many (things.flatMap write ++ rest) = (things, rest) := by
  induction things with
  | nil => exact many_none hrest
  | cons a things ih =>
    obtain ⟨ha, hthings⟩ := List.forall_mem_cons.mp h
    rw [List.flatMap_cons, List.append_assoc, many_some (ha _), ih hthings]

/-- The characters of a class are read up to one that is not of it. -/
theorem many_char {ok : Char → Bool} {w rest : Text} (hw : ∀ c ∈ w, ok c = true)
    (hrest : (char ok).run rest = none) : (char ok).many (w ++ rest) = (w, rest) := by
  have h : (char ok).many (w.flatMap (fun c => [c]) ++ rest) = (w, rest) :=
    many_flatMap (fun c hc r => run_char_cons (hw c hc) r) hrest
  rwa [List.flatMap_singleton'] at h

/-- A fixed number of characters of a class are read as they stand. -/
theorem run_timesSucc_char {ok : Char → Bool} {w : Text} (h : ∀ d ∈ c :: w, ok d = true)
    (r : Text) : ((char ok).timesSucc w.length).run (c :: (w ++ r)) = some (c :: w, r) := by
  induction w generalizing c with
  | nil => exact run_map _ (run_char_cons (h c List.mem_cons_self) r)
  | cons d w ih =>
    obtain ⟨hc, hw⟩ := List.forall_mem_cons.mp h
    exact run_map _ (run_seq (run_char_cons hc _) (ih hw))

/-- What was written thing by thing is read so, up to what is refused, if each thing is read where
the text goes on in a certain way, and all things and the rest start in that way. -/
theorem many_flatMap_of_follow {R : α → β → Prop} {write : β → Text} {Follow : Text → Prop}
    {things : List β} {rest : Text}
    (h : ∀ b ∈ things, ∀ r, Follow r → ∃ a, R a b ∧ p.run (write b ++ r) = some (a, r))
    (hwrite : ∀ b ∈ things, ∀ r, Follow (write b ++ r)) (hfollow : Follow rest)
    (hrest : p.run rest = none) :
    ∃ as, List.Forall₂ R as things ∧ p.many (things.flatMap write ++ rest) = (as, rest) := by
  induction things with
  | nil => exact ⟨[], .nil, many_none hrest⟩
  | cons b things ih =>
    obtain ⟨hb, hthings⟩ := List.forall_mem_cons.mp h
    obtain ⟨-, hwrites⟩ := List.forall_mem_cons.mp hwrite
    -- what comes next is another thing or the rest
    have hnext : Follow (things.flatMap write ++ rest) := by
      cases things with
      | nil => exact hfollow
      | cons next things =>
        rw [List.flatMap_cons, List.append_assoc]
        exact hwrites next List.mem_cons_self _
    obtain ⟨a, ha, hrun⟩ := hb _ hnext
    obtain ⟨as, has, hmany⟩ := ih hthings hwrites
    refine ⟨a :: as, .cons ha has, ?_⟩
    rw [List.flatMap_cons, List.append_assoc, many_some hrun, hmany]

/-! ## Spans -/

/-- The span of what is read reaches from where the reader started to where it stopped. -/
theorem run_spanned (hp : p.run s = some (a, r)) : p.spanned.run s = some ((a, ⟨s, r⟩), r) := by
  simp [spanned, hp]

theorem run_spanned_of_none (hp : p.run s = none) : p.spanned.run s = none := by
  simp [spanned, hp]

/-! ## Fillers -/

/-- What is skipped after a reader does not show in its value. -/
theorem run_before {f : Filler} (hp : p.run s = some (a, s')) (hf : f.run s' = some r) :
    (p.before f).run s = some (a, r) := by
  simp [before, hp, hf]

theorem run_before_of_none {f : Filler} (hp : p.run s = none) : (p.before f).run s = none := by
  simp [before, hp]

/-- What is skipped in front of a reader does not show in its value. -/
theorem run_after {f : Filler} (hf : f.run s = some s') (hp : p.run s' = some (a, r)) :
    (p.after f).run s = some (a, r) := by
  simp [after, hp, hf]

theorem run_after_of_none {f : Filler} (hf : f.run s = some s') (hp : p.run s' = none) :
    (p.after f).run s = none := by
  simp [after, hp, hf]

end Reader

namespace Filler

variable {α : Type} {p : Reader α} {f g : Filler} {s s' r : Text} {a : α}

theorem run_seq (hf : f.run s = some s') (hg : g.run s' = some r) :
    (f.seq g).run s = some r := by
  simp [seq, hf, hg]

theorem run_optional_of_none (hp : p.run s = none) : (optional p).run s = some s := by
  simp [optional, hp]

theorem run_many_of_none (hp : p.run s = none) : (many p).run s = some s := by
  simp [many, Reader.many_none hp]

/-- Skipping many goes on after one. -/
theorem run_many_of_some (hp : p.run s = some (a, r)) : (many p).run s = (many p).run r := by
  simp [many, Reader.many_some hp]

/-- A filler stays where the next character is not of its class. -/
theorem run_dropWhile_cons_of_not {ok : Char → Bool} {c : Char} (h : ok c = false) (r : Text) :
    (dropWhile ok).run (c :: r) = some (c :: r) := by
  show some _ = _
  rw [List.dropWhile_cons_of_neg (Bool.eq_false_iff.mp h)]

end Filler

end FencedCode

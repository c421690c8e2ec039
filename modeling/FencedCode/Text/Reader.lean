import FencedCode.Text.Basic

/-!
# Readers

A reader takes one thing from the front of a text and gives it together with the rest. Each carries
the proof that the rest is shorter, so a grammar put together from readers always comes to an end:
`Reader.many`, the one loop, is governed by the equations `many_none` and `many_some`. A filler
passes over what may stand between two readings, possibly nothing.
-/
namespace FencedCode

/-- Takes an `α` from the front of a text, or fails. -/
structure Reader (α : Type) where
  /-- what is read, and the rest of the text -/
  run : Text → Option (α × Text)
  /-- a success uses up at least one character -/
  shorter : ∀ {s a r}, run s = some (a, r) → r.length < s.length

/-- Passes over the front of a text, or fails. -/
structure Filler where
  /-- the rest of the text -/
  run : Text → Option Text
  /-- the rest is no longer than the text -/
  noLonger : ∀ {s r}, run s = some r → r.length ≤ s.length

namespace Reader

variable {α β : Type}

/-- One character of a class. -/
def char (ok : Char → Bool) : Reader Char where
  run
    | c :: r => if ok c then some (c, r) else none
    | [] => none
  shorter {s a r} h := by
    cases s with
    | nil => contradiction
    | cons c s =>
      simp only [Option.ite_none_right_eq_some, Option.some.injEq, Prod.mk.injEq] at h
      simp [h.2.2]

/-- One given character. -/
def exactly (c : Char) : Reader Char :=
  char (· == c)

/-- What two readers take one after the other. -/
def seq (p : Reader α) (q : Reader β) : Reader (α × β) where
  run s := do
    let (a, s) ← p.run s
    let (b, s) ← q.run s
    some ((a, b), s)
  shorter {s ab r} h := by
    simp only [Option.bind_eq_bind, Option.bind_eq_some_iff, Option.some.injEq, Prod.mk.injEq] at h
    obtain ⟨⟨a, s₁⟩, hp, ⟨b, s₂⟩, hq, -, rfl⟩ := h
    exact Nat.lt_trans (q.shorter hq) (p.shorter hp)

/-- What a reader takes, if `f` has a value for it. -/
def filterMap (f : α → Option β) (p : Reader α) : Reader β where
  run s := do
    let (a, s) ← p.run s
    let b ← f a
    some (b, s)
  shorter {s b r} h := by
    simp only [Option.bind_eq_bind, Option.bind_eq_some_iff, Option.some.injEq, Prod.mk.injEq] at h
    obtain ⟨⟨a, s₁⟩, hp, b', -, -, rfl⟩ := h
    exact p.shorter hp

/-- What a reader takes, turned into something else. -/
def map (f : α → β) (p : Reader α) : Reader β :=
  p.filterMap fun a => some (f a)

/-- The first of two readers in one another's wake. -/
def left (p : Reader α) (q : Reader β) : Reader α :=
  (p.seq q).map Prod.fst

/-- The second of two readers in one another's wake. -/
def right (p : Reader α) (q : Reader β) : Reader β :=
  (p.seq q).map Prod.snd

/-- The first of two readers that succeeds. -/
def or (p q : Reader α) : Reader α where
  run s := (p.run s).orElse fun _ => q.run s
  shorter {s a r} h := by
    cases hp : p.run s with
    | some x =>
      rw [hp] at h
      exact p.shorter (hp.trans h)
    | none =>
      rw [hp] at h
      exact q.shorter h

instance : OrElse (Reader α) :=
  ⟨fun p q => p.or (q ())⟩

/-- A reader, followed by another one where that succeeds. -/
def optional (p : Reader α) (q : Reader β) : Reader (α × Option β) where
  run s := do
    let (a, s) ← p.run s
    match q.run s with
    | some (b, s) => some ((a, some b), s)
    | none => some ((a, none), s)
  shorter {s ab r} h := by
    simp only [Option.bind_eq_bind, Option.bind_eq_some_iff] at h
    obtain ⟨⟨a, s₁⟩, hp, h⟩ := h
    split at h
    · rename_i b s₂ hq
      obtain ⟨-, rfl⟩ := Prod.mk.inj (Option.some.inj h)
      exact Nat.lt_trans (q.shorter hq) (p.shorter hp)
    · obtain ⟨-, rfl⟩ := Prod.mk.inj (Option.some.inj h)
      exact p.shorter hp

/-- Reads again and again until a reading fails; the things read are collected in reverse. -/
private def manyFrom (p : Reader α) (read : List α) (s : Text) : List α × Text :=
  match _h : p.run s with
  | none => (read.reverse, s)
  | some (a, r) => manyFrom p (a :: read) r
termination_by s.length
decreasing_by exact p.shorter _h

/-- What a reader takes again and again until it fails, and the rest. -/
def many (p : Reader α) (s : Text) : List α × Text :=
  manyFrom p [] s

/-- What was read before stays in front. -/
private theorem manyFrom_append (p : Reader α) (read before : List α) (s : Text) :
    manyFrom p (read ++ before) s =
      (before.reverse ++ (manyFrom p read s).1, (manyFrom p read s).2) := by
  fun_induction manyFrom p read s with
  | case1 read s h => rw [manyFrom, h]; simp
  | case2 read s a r h ih => rw [manyFrom, h]; exact ih

theorem many_none {p : Reader α} {s : Text} (h : p.run s = none) : p.many s = ([], s) := by
  rw [many, manyFrom, h]
  rfl

/-- One item is read, and then those that follow it. -/
theorem many_some {p : Reader α} {s r : Text} {a : α} (h : p.run s = some (a, r)) :
    p.many s = (a :: (p.many r).1, (p.many r).2) := by
  rw [many, manyFrom, h]
  exact manyFrom_append p [] [a] r

/-- Reading many takes from the front of a text and adds nothing. -/
theorem length_many_le (p : Reader α) (s : Text) : (p.many s).2.length ≤ s.length := by
  cases h : p.run s with
  | none => simp [many_none h]
  | some x =>
    obtain ⟨a, r⟩ := x
    rw [many_some h]
    exact Nat.le_trans (length_many_le p r) (Nat.le_of_lt (p.shorter h))
termination_by s.length
decreasing_by exact p.shorter h

/-- A reader, followed by another one as often as that succeeds. -/
def andMany (p : Reader α) (q : Reader β) : Reader (α × List β) where
  run s := do
    let (a, s) ← p.run s
    let (bs, s) := q.many s
    some ((a, bs), s)
  shorter {s ab r} h := by
    simp only [Option.bind_eq_bind, Option.bind_eq_some_iff, Option.some.injEq, Prod.mk.injEq] at h
    obtain ⟨⟨a, s₁⟩, hp, -, rfl⟩ := h
    exact Nat.lt_of_le_of_lt (q.length_many_le s₁) (p.shorter hp)

/-- What a reader takes once or more. -/
def oneOrMore (p : Reader α) : Reader (List α) :=
  (p.andMany p).map fun (a, as) => a :: as

/-- What a reader takes once or more, with a separator between each two. -/
def sepBy (p : Reader α) (separator : Reader β) : Reader (List α) :=
  (p.andMany (separator.right p)).map fun (a, as) => a :: as

/-- What a reader takes `n + 1` times. -/
def timesSucc (p : Reader α) : Nat → Reader (List α)
  | 0 => p.map ([·])
  | n + 1 => (p.seq (timesSucc p n)).map fun (a, as) => a :: as

/-- A given text that is not empty. -/
def word (c : Char) : Text → Reader Unit
  | [] => (exactly c).map fun _ => ()
  | d :: w => (exactly c).right (word d w)

/-- A reader, followed by a filler. -/
def before (p : Reader α) (f : Filler) : Reader α where
  run s := do
    let (a, s) ← p.run s
    let s ← f.run s
    some (a, s)
  shorter {s a r} h := by
    simp only [Option.bind_eq_bind, Option.bind_eq_some_iff, Option.some.injEq, Prod.mk.injEq] at h
    obtain ⟨⟨a, s₁⟩, hp, s₂, hf, -, rfl⟩ := h
    exact Nat.lt_of_le_of_lt (f.noLonger hf) (p.shorter hp)

/-- A reader, preceded by a filler. -/
def after (p : Reader α) (f : Filler) : Reader α where
  run s := f.run s >>= p.run
  shorter {s a r} h := by
    simp only [Option.bind_eq_bind, Option.bind_eq_some_iff] at h
    obtain ⟨s₁, hf, hp⟩ := h
    exact Nat.lt_of_lt_of_le (p.shorter hp) (f.noLonger hf)

end Reader

namespace Filler

/-- All characters of a class at the front. -/
def dropWhile (ok : Char → Bool) : Filler where
  run s := some (s.dropWhile ok)
  noLonger {s r} h := by
    obtain rfl := Option.some.inj h
    exact (List.dropWhile_suffix ok).length_le

/-- What a reader takes, as often as it succeeds. -/
def many {α : Type} (p : Reader α) : Filler where
  run s := some (p.many s).2
  noLonger {s r} h := by
    obtain rfl := Option.some.inj h
    exact p.length_many_le s

/-- What a reader takes, if it succeeds. -/
def optional {α : Type} (p : Reader α) : Filler where
  run s := some (((p.run s).map Prod.snd).getD s)
  noLonger {s r} h := by
    obtain rfl := Option.some.inj h
    cases hp : p.run s with
    | none => exact Nat.le_refl _
    | some x => exact Nat.le_of_lt (p.shorter hp)

/-- One filler and then another. -/
def seq (f g : Filler) : Filler where
  run s := f.run s >>= g.run
  noLonger {s r} h := by
    simp only [Option.bind_eq_bind, Option.bind_eq_some_iff] at h
    obtain ⟨s₁, hf, hg⟩ := h
    exact Nat.le_trans (g.noLonger hg) (f.noLonger hf)

/-- What a reader takes, or the end of the text. -/
def orEnd {α : Type} (p : Reader α) : Filler where
  run s := if s.isEmpty then some [] else (p.run s).map Prod.snd
  noLonger {s r} h := by
    cases s with
    | nil => simp at h; simp [h]
    | cons c s =>
      simp only [List.isEmpty_cons, Bool.false_eq_true, if_false, Option.map_eq_some_iff] at h
      obtain ⟨⟨a, r'⟩, hp, rfl⟩ := h
      exact Nat.le_of_lt (p.shorter hp)

end Filler

end FencedCode

import Mathlib.Data.List.Basic

/-!
# Lists cut after a terminator

`cutAfter` cuts a list after each terminator in it. What terminated parts were put together from
comes out again, as long as no part holds the terminator itself (`cutAfter_flatMap`). So do a part
and all that follows its terminator (`append_cons_inj_of_not_mem`), and what the parts were written
for, if each of them can be read back (`mapM_map_eq_some`).
-/
namespace FencedCode

variable {α : Type} [DecidableEq α] {stop : α}

/-- The parts of a list up to and including each terminator, and what follows the last one, if
anything does. -/
def cutAfter (stop : α) : List α → List (List α)
  | [] => []
  | a :: rest =>
    if a = stop then [a] :: cutAfter stop rest
    else
      match cutAfter stop rest with
      | [] => [[a]]
      | part :: parts => (a :: part) :: parts

/-- A part without terminators and the terminator after it are cut off. -/
theorem cutAfter_append_cons {part : List α} (h : stop ∉ part) (rest : List α) :
    cutAfter stop (part ++ stop :: rest) = (part ++ [stop]) :: cutAfter stop rest := by
  induction part with
  | nil => rw [List.nil_append, cutAfter, if_pos rfl, List.nil_append]
  | cons a part ih =>
    rw [List.mem_cons, not_or] at h
    obtain ⟨ha, hpart⟩ := h
    rw [List.cons_append, cutAfter, if_neg (Ne.symm ha), ih hpart]
    rfl

/-- Terminated parts that hold no terminator otherwise are what a cut gives. -/
theorem cutAfter_flatMap {parts : List (List α)} (h : ∀ part ∈ parts, stop ∉ part) :
    cutAfter stop (parts.flatMap (· ++ [stop])) = parts.map (· ++ [stop]) := by
  induction parts with
  | nil => rfl
  | cons part parts ih =>
    obtain ⟨hpart, hparts⟩ := List.forall_mem_cons.mp h
    rw [List.flatMap_cons, List.append_assoc, List.singleton_append, cutAfter_append_cons hpart,
      ih hparts, List.map_cons]

/-- There are as many terminators as such parts. -/
theorem count_flatMap_terminated {parts : List (List α)} (h : ∀ part ∈ parts, stop ∉ part) :
    (parts.flatMap (· ++ [stop])).count stop = parts.length := by
  induction parts with
  | nil => rfl
  | cons part parts ih =>
    obtain ⟨hpart, hparts⟩ := List.forall_mem_cons.mp h
    rw [List.flatMap_cons, List.count_append, List.count_append, List.count_eq_zero.mpr hpart,
      List.count_singleton_self, ih hparts, List.length_cons]
    omega

/-- Where the first terminator stands says what is before it and what is after it. -/
theorem append_cons_inj_of_not_mem {s t u v : List α} (hs : stop ∉ s) (hu : stop ∉ u)
    (h : s ++ stop :: t = u ++ stop :: v) : s = u ∧ t = v := by
  have hcut := congrArg (cutAfter stop) h
  rw [cutAfter_append_cons hs, cutAfter_append_cons hu] at hcut
  obtain rfl : s = u := List.append_cancel_right (List.cons.inj hcut).1
  exact ⟨rfl, (List.cons.inj (List.append_cancel_left h)).2⟩

/-- What is read back one by one is read back as a list. -/
theorem mapM_map_eq_some {β γ : Type} {write : β → γ} {read? : γ → Option β} {list : List β}
    (h : ∀ b ∈ list, read? (write b) = some b) : (list.map write).mapM read? = some list := by
  induction list with
  | nil => rfl
  | cons b list ih =>
    obtain ⟨hb, hlist⟩ := List.forall_mem_cons.mp h
    rw [List.map_cons, List.mapM_cons, hb, ih hlist]
    rfl

end FencedCode

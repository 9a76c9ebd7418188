/-!
# Splitting at a separator

A text with `n` separators splits into `n + 1` parts, empty ones included, and joining the parts with
the separator gives the text back.
-/

namespace Rulebase.Text

def split (separator : Char) : List Char → List (List Char)
  | [] => [[]]
  | c :: cs =>
    if c = separator then [] :: split separator cs
    else match split separator cs with
      | [] => [[c]]
      | part :: parts => (c :: part) :: parts

def join (separator : Char) : List (List Char) → List Char
  | [] => []
  | [part] => part
  | part :: parts => part ++ separator :: join separator parts

theorem split_ne_nil (separator : Char) (cs : List Char) : split separator cs ≠ [] := by
  cases cs with
  | nil => simp [split]
  | cons c cs =>
    simp only [split]
    split
    · simp
    · split <;> simp

theorem join_split (separator : Char) (cs : List Char) : join separator (split separator cs) = cs := by
  induction cs with
  | nil => rfl
  | cons c cs ih =>
    simp only [split]
    split
    next h =>
      cases parts : split separator cs with
      | nil => exact absurd parts (split_ne_nil separator cs)
      | cons part parts' => rw [parts] at ih; simp [join, ih, h]
    next h =>
      cases parts : split separator cs with
      | nil => exact absurd parts (split_ne_nil separator cs)
      | cons part parts' =>
        rw [parts] at ih
        cases parts' with
        | nil => simpa [join] using ih
        | cons next rest => simpa [join] using ih

end Rulebase.Text

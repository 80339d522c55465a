/-!
# Event tags

**Rule.** An event carries a free-text tag of the form `action:resource`. Its resource is what
follows the first colon, and the whole tag if there is none. Events of one owner whose tags name the
same resource are never run at the same time, whatever their actions.

**Contents**

* `Tag.afterColon?`, `Tag.resource`
-/

namespace EventDispatch

/-- The tag of an event. -/
abbrev Tag := String

namespace Tag

/-- What follows the first colon. -/
def afterColon? : List Char → Option (List Char)
  | [] => none
  | ':' :: rest => some rest
  | _ :: rest => afterColon? rest

/-- The resource that a tag names. -/
def resource (tag : Tag) : String :=
  match afterColon? tag.toList with
  | some rest => String.ofList rest
  | none => tag

/-- The text after the first colon is found behind any text without a colon. -/
theorem afterColon?_append {before : List Char} (h : ':' ∉ before) (after : List Char) :
    afterColon? (before ++ ':' :: after) = some after := by
  induction before with
  | nil => rfl
  | cons c rest ih =>
    simp only [List.mem_cons, not_or] at h
    have hc : c ≠ ':' := fun e => h.1 e.symm
    simp [afterColon?, ih h.2]

/-- Only a text without a colon has no part after one. -/
theorem afterColon?_eq_none_iff {cs : List Char} : afterColon? cs = none ↔ ':' ∉ cs := by
  induction cs with
  | nil => simp [afterColon?]
  | cons c rest ih =>
    by_cases h : c = ':'
    · subst h
      simp [afterColon?]
    · have h' : ¬ ':' = c := fun e => h e.symm
      simp [afterColon?, ih, h']

end Tag
end EventDispatch

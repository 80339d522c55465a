import EventDispatch.Dispatch.Client
import EventDispatch.Store.Selection
import EventDispatch.Text.Quoted

/-!
# The registry

**Rule.** Each registered tag has one handler and one class; registering a tag again replaces both.
The entries are kept in ascending order of their tags, so every view is sorted.

**Contents**

* `Registry`, `Registry.register`, `Registry.registerKind`, `Registry.registerClient`
* `Registry.find?`, `Registry.classOf?`, `Registry.contains`, `Registry.size`, `Registry.tags`,
  `Registry.tagsIn`
* `Registry.text`
-/

namespace EventDispatch

/-- What is registered for a tag. -/
structure Entry where
  /-- The class with which it is paused. -/
  eventClass : EventClass
  /-- What is called. -/
  handler : Handler

/-- Handlers under their tags. -/
structure Registry where
  /-- The entries, in ascending order of their tags. -/
  entries : List (Tag × Entry)

namespace Registry

/-- Nothing is registered. -/
def empty : Registry := ⟨[]⟩

/-- Puts an entry at the place of its tag, over an entry that is there. -/
def insertEntry (tag : Tag) (entry : Entry) : List (Tag × Entry) → List (Tag × Entry)
  | [] => [(tag, entry)]
  | (t, e) :: rest =>
    if tag < t then (tag, entry) :: (t, e) :: rest
    else if tag = t then (tag, entry) :: rest
    else (t, e) :: insertEntry tag entry rest

/-- Registers a handler for a tag. -/
def register (r : Registry) (tag : Tag) (eventClass : EventClass) (handler : Handler) : Registry :=
  ⟨insertEntry tag ⟨eventClass, handler⟩ r.entries⟩

/-- Registers a handler for a known kind, under the class of the kind. -/
def registerKind (r : Registry) (kind : EventKind) (handler : Handler) : Registry :=
  r.register kind.tag kind.eventClass handler

/-- Registers a client for every known kind. -/
def registerClient (r : Registry) (client : Client) : Registry :=
  EventKind.all.foldl (fun r kind => r.registerKind kind ((Family.ofKind kind).handler client)) r

/-- The entry of a tag. -/
def find? (r : Registry) (tag : Tag) : Option Entry := r.entries.lookup tag

/-- The class of a registered tag. -/
def classOf? (r : Registry) (tag : Tag) : Option EventClass := (r.find? tag).map Entry.eventClass

/-- Whether a tag is registered. -/
def contains (r : Registry) (tag : Tag) : Bool := (r.find? tag).isSome

/-- The number of registered tags. -/
def size (r : Registry) : Nat := r.entries.length

/-- The registered tags, in ascending order. -/
def tags (r : Registry) : List Tag := r.entries.map Prod.fst

/-- The registered tags whose class is among those given, in ascending order. -/
def tagsIn (r : Registry) (classes : List EventClass) : List Tag :=
  (r.entries.filter fun entry => classes.contains entry.2.eventClass).map Prod.fst

/-- The filter of a cycle that starts while some classes are paused. -/
def filterFor (r : Registry) (pausedClasses : List EventClass) : DispatchFilter :=
  ⟨r.tagsIn pausedClasses, some r.tags⟩

/-- The registry in a listing of values. -/
def text (r : Registry) : String :=
  "WorkerRegistry \x7b tags: " ++ Text.braced (r.tags.map Text.quoted) ++ " \x7d"

/-- A tag just registered has the new entry. -/
theorem lookup_insertEntry_self (tag : Tag) (entry : Entry) (entries : List (Tag × Entry)) :
    (insertEntry tag entry entries).lookup tag = some entry := by
  induction entries with
  | nil => simp [insertEntry]
  | cons head rest ih =>
    obtain ⟨t, e⟩ := head
    simp only [insertEntry]
    split
    · simp
    · split
      · simp
      · next h =>
        have hb : (tag == t) = false := by simpa using h
        simp [List.lookup_cons, ih, hb]

end Registry
end EventDispatch

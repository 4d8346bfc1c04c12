import TiyGate.Core.Ir

/-!
# Tool calls in a stream

What a sequence of stream parts says about each tool call: its name, its
argument text and the order in which the calls appear.  Deltas of several
calls may be interleaved; a call is known by its id.
-/

namespace TiyGate.Core

/-- The contents of a tool call part. -/
structure ToolDelta where
  id : String
  name : Option String
  arguments : String
  wireType : Option String := none
  itemId : Option String := none
  caller : Option ToolCaller := none
  deriving DecidableEq

/-- A tool call part. -/
def ToolDelta.part (delta : ToolDelta) : StreamPart :=
  .toolCallDelta delta.id delta.name delta.arguments delta.wireType delta.itemId delta.caller

/-- The contents of a part that is a tool call part. -/
def StreamPart.toolDelta? : StreamPart → Option ToolDelta
  | .toolCallDelta id name arguments wireType itemId caller =>
      some ⟨id, name, arguments, wireType, itemId, caller⟩
  | _ => none

/-- The tool call deltas of a sequence of parts. -/
def toolDeltas (parts : List StreamPart) : List ToolDelta :=
  parts.filterMap StreamPart.toolDelta?

/-- The name of a call: the first one given. -/
def nameOf (id : String) (deltas : List ToolDelta) : Option String :=
  deltas.findSome? fun delta => if delta.id = id then delta.name else none

/-- The argument text of a call: all of it, in order. -/
def argumentsOf (id : String) : List ToolDelta → String
  | [] => ""
  | delta :: deltas =>
      (if delta.id = id then delta.arguments else "") ++ argumentsOf id deltas

/-- The ids of the calls in the order in which they first appear. -/
def callOrder (deltas : List ToolDelta) : List String :=
  (deltas.map (·.id)).eraseDups

@[simp]
theorem toolDelta?_part (delta : ToolDelta) : delta.part.toolDelta? = some delta :=
  rfl

@[simp]
theorem toolDeltas_append (front back : List StreamPart) :
    toolDeltas (front ++ back) = toolDeltas front ++ toolDeltas back :=
  List.filterMap_append

theorem argumentsOf_append (id : String) (front back : List ToolDelta) :
    argumentsOf id (front ++ back) = argumentsOf id front ++ argumentsOf id back := by
  induction front with
  | nil => simp [argumentsOf]
  | cons delta front ih => simp [argumentsOf, ih, String.append_assoc]

/-- The argument text of a call depends on the text each delta brings. -/
theorem argumentsOf_flatMap {expand : ToolDelta → List ToolDelta} {id : String}
    (same : ∀ delta, argumentsOf id (expand delta) = argumentsOf id [delta])
    (deltas : List ToolDelta) :
    argumentsOf id (deltas.flatMap expand) = argumentsOf id deltas := by
  induction deltas with
  | nil => rfl
  | cons delta deltas ih =>
      rw [List.flatMap_cons, argumentsOf_append, same, ih]
      simp [argumentsOf]

theorem eraseDups_filter (keep : String → Bool) (ids : List String) :
    (ids.filter keep).eraseDups = ids.eraseDups.filter keep := by
  induction length : ids.length using Nat.strongRecOn generalizing ids with
  | ind n ih =>
      cases ids with
      | nil => rfl
      | cons id ids =>
          have shorter : (ids.filter fun other => !other == id).length < n := by
            have := List.length_filter_le (fun other => !other == id) ids
            rw [List.length_cons] at length
            omega
          have rest := ih _ shorter (ids.filter fun other => !other == id) rfl
          rw [List.eraseDups_cons, List.filter_cons, List.filter_cons]
          split_ifs with kept
          · rw [List.eraseDups_cons, List.filter_comm, rest]
          · rw [← rest, List.filter_filter]
            congr 1
            apply List.filter_congr
            intro other _
            by_cases same : other = id
            · simp [same, kept]
            · simp [same]

/-- Expanding every delta to deltas of its own call keeps the order. -/
theorem callOrder_flatMap {expand : ToolDelta → List ToolDelta}
    (own : ∀ delta, ∃ more, (expand delta).map (·.id) = delta.id :: more ∧
      ∀ id ∈ more, id = delta.id)
    (deltas : List ToolDelta) : callOrder (deltas.flatMap expand) = callOrder deltas := by
  unfold callOrder
  rw [List.map_flatMap]
  induction deltas with
  | nil => rfl
  | cons delta deltas ih =>
      obtain ⟨more, ids, same⟩ := own delta
      have absorbed : more.filter (fun id => !id == delta.id) = [] := by
        rw [List.filter_eq_nil_iff]
        intro id mem
        simp [same id mem]
      rw [List.flatMap_cons, ids, List.map_cons, List.cons_append, List.eraseDups_cons,
        List.eraseDups_cons, List.filter_append, absorbed, List.nil_append, eraseDups_filter,
        eraseDups_filter, ih]

end TiyGate.Core

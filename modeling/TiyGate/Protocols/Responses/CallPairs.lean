import Mathlib.Data.List.Nodup
import TiyGate.Data.Mealy
import TiyGate.Protocols.Responses.Request

/-!
# Function calls and their outputs

A client may give one id to several function calls, or none at all.  Every call
is given an id of its own, and an output takes the id of the first call that
still waits for one.  Along every input the ids of the calls are distinct, and
outputs that come after their calls answer them in their order.
-/

namespace TiyGate.Protocols.Responses

open TiyGate.Core (Content IrRequest Message Role)
open Json (FloatCast FloatText)

/-! ## Ids that are not in use -/

theorem numberedId_injective (base : String) : Function.Injective (numberedId base) := by
  intro m n same
  have chars := congrArg String.toList same
  simp only [numberedId, String.toList_append] at chars
  have digits := List.append_cancel_left chars
  rw [Nat.toString_eq_repr, Nat.toString_eq_repr, Nat.toList_repr, Nat.toList_repr] at digits
  rw [← Nat.ofDigitChars_ten_toDigits (n := m), digits, Nat.ofDigitChars_ten_toDigits]

theorem numberedId_ne_base (base : String) (n : Nat) : numberedId base n ≠ base := by
  intro same
  have lengths := congrArg (fun text : String => text.toList.length) same
  simp only [numberedId, String.toList_append, List.length_append] at lengths
  have marks : "_".toList.length = 1 := rfl
  omega

/-- The candidates in the order in which they are tried. -/
def candidatesFrom (base : String) (collision count : Nat) : List String :=
  (List.range' collision count).map (numberedId base)

theorem firstUnused_eq {base : String} {used : List String} {candidate : String}
    {collision fuel : Nat} (taken : firstUnused base used candidate collision fuel ∈ used) :
    ∀ other ∈ candidate :: candidatesFrom base collision fuel, other ∈ used := by
  induction fuel generalizing candidate collision with
  | zero =>
      rw [firstUnused] at taken
      exact List.forall_mem_singleton.mpr taken
  | succ fuel inductionHypothesis =>
      rw [firstUnused] at taken
      split_ifs at taken with inUse
      · rw [List.forall_mem_cons]
        refine ⟨inUse, ?_⟩
        rw [candidatesFrom, List.range'_succ, List.map_cons]
        exact inductionHypothesis taken
      · exact absurd taken inUse

/-- The id that is chosen is not in use: there are more candidates than ids in use. -/
theorem uniqueResponsesCallId_not_mem (rawId : String) (occurrence : Nat) (used : List String) :
    uniqueResponsesCallId rawId occurrence used ∉ used := by
  intro taken
  unfold uniqueResponsesCallId at taken
  set base := if rawId = "" then numberedId "call_tiygate" occurrence
    else if occurrence = 0 then rawId else numberedId rawId occurrence
  have all := firstUnused_eq taken
  have distinct : (base :: candidatesFrom base 1 used.length).Nodup := by
    rw [List.nodup_cons]
    constructor
    · intro mem
      obtain ⟨number, -, same⟩ := List.mem_map.mp mem
      exact numberedId_ne_base base number same
    · exact List.Nodup.map (numberedId_injective base) List.nodup_range'
  have bounded := (List.subperm_of_subset distinct all).length_le
  simp only [candidatesFrom, List.length_cons, List.length_map, List.length_range'] at bounded
  omega

/-- A first id that is not in use is kept. -/
theorem uniqueResponsesCallId_first {rawId : String} {used : List String} (nonempty : rawId ≠ "")
    (unused : rawId ∉ used) : uniqueResponsesCallId rawId 0 used = rawId := by
  unfold uniqueResponsesCallId
  rw [if_neg nonempty, if_pos rfl]
  cases used with
  | nil => rfl
  | cons first used => exact if_neg unused

/-! ## Calls and outputs -/

/-- A function call or an output, with the id that the client gave it. -/
inductive IdEvent
  | call (rawId : String)
  | output (rawId : String)
  deriving DecidableEq

def IdEvent.isCall : IdEvent → Bool
  | call _ => true
  | output _ => false

/-- What has been read so far, with the ids that were given. -/
abbrev History := List (IdEvent × String)

/-- The ids given to the calls of one id. -/
def callIdsOf (rawId : String) (history : History) : List String :=
  (history.filter (·.1 = .call rawId)).map Prod.snd

/-- The ids given to the outputs of one id. -/
def outputIdsOf (rawId : String) (history : History) : List String :=
  (history.filter (·.1 = .output rawId)).map Prod.snd

/-- The ids given to all calls. -/
def givenIds (history : History) : List String :=
  (history.filter (·.1.isCall)).map Prod.snd

/-- No output of the id comes before its call. -/
def Timely (rawId : String) (events : List IdEvent) : Prop :=
  ∀ front, front <+: events → front.count (.output rawId) ≤ front.count (.call rawId)

theorem Timely.of_append {rawId : String} {front back : List IdEvent}
    (timely : Timely rawId (front ++ back)) : Timely rawId front :=
  fun _ inside => timely _ (inside.trans (List.prefix_append front back))

namespace CallIds

/-- The id for an event. -/
def take (ids : CallIds) (event : IdEvent) : CallIds × String :=
  match event with
  | .call rawId => ids.assign rawId
  | .output rawId => ids.resolve rawId

/-- The history of a run. -/
def history (ids : CallIds) (events : List IdEvent) : History :=
  Mealy.outputs (fun (ids : CallIds) event => ((ids.take event).1, [(event, (ids.take event).2)]))
    ids events

/-- What is known of the ids fits what has been read. -/
structure Tracks (history : History) (ids : CallIds) : Prop where
  used : ids.used = (givenIds history).reverse
  distinct : (givenIds history).Nodup
  counted : ∀ rawId, (Assoc.lookup rawId ids.counts).getD 0 = (callIdsOf rawId history).length
  waiting : ∀ rawId, Timely rawId (history.map Prod.fst) →
    callIdsOf rawId history = outputIdsOf rawId history ++ (Assoc.lookup rawId ids.remap).getD []
  kept : ∀ front back rawId id, history = front ++ (.call rawId, id) :: back → rawId ≠ "" →
    callIdsOf rawId front = [] → rawId ∉ givenIds front → id = rawId

end CallIds

theorem callIdsOf_concat (rawId : String) (history : History) (event : IdEvent) (id : String) :
    callIdsOf rawId (history ++ [(event, id)]) =
      callIdsOf rawId history ++ if event = .call rawId then [id] else [] := by
  by_cases same : event = .call rawId <;> simp [callIdsOf, same]

theorem outputIdsOf_concat (rawId : String) (history : History) (event : IdEvent) (id : String) :
    outputIdsOf rawId (history ++ [(event, id)]) =
      outputIdsOf rawId history ++ if event = .output rawId then [id] else [] := by
  by_cases same : event = .output rawId <;> simp [outputIdsOf, same]

theorem givenIds_concat (history : History) (event : IdEvent) (id : String) :
    givenIds (history ++ [(event, id)]) =
      givenIds history ++ if event.isCall then [id] else [] := by
  cases called : event.isCall <;> simp [givenIds, called]

theorem length_callIdsOf (rawId : String) (history : History) :
    (callIdsOf rawId history).length = (history.map Prod.fst).count (.call rawId) := by
  induction history with
  | nil => rfl
  | cons entry history inductionHypothesis =>
      by_cases same : entry.1 = .call rawId <;>
        simp_all [callIdsOf]

theorem length_outputIdsOf (rawId : String) (history : History) :
    (outputIdsOf rawId history).length = (history.map Prod.fst).count (.output rawId) := by
  induction history with
  | nil => rfl
  | cons entry history inductionHypothesis =>
      by_cases same : entry.1 = .output rawId <;>
        simp_all [outputIdsOf]

namespace CallIds

variable {history : History} {ids : CallIds}

theorem Tracks.initial : Tracks [] {} where
  used := rfl
  distinct := List.nodup_nil
  counted _ := rfl
  waiting _ _ := rfl
  kept front back rawId id whole := by simp at whole

/-- The last entry of a history is the only one that is new. -/
theorem Tracks.kept_concat (tracks : Tracks history ids) {event : IdEvent} {given : String}
    (last : ∀ rawId, event = .call rawId → rawId ≠ "" → callIdsOf rawId history = [] →
      rawId ∉ givenIds history → given = rawId) :
    ∀ front back rawId id, history ++ [(event, given)] = front ++ (.call rawId, id) :: back →
      rawId ≠ "" → callIdsOf rawId front = [] → rawId ∉ givenIds front → id = rawId := by
  intro front back rawId id whole nonempty first unused
  rcases List.eq_nil_or_concat' back with rfl | ⟨back, final, rfl⟩
  · obtain ⟨rfl, entry⟩ := List.append_inj' whole rfl
    obtain ⟨rfl, rfl⟩ := Prod.mk.inj (List.singleton_inj.mp entry)
    exact last rawId rfl nonempty first unused
  · rw [← List.cons_append, ← List.append_assoc] at whole
    obtain ⟨earlier, -⟩ := List.append_inj' whole rfl
    exact tracks.kept front back rawId id earlier nonempty first unused

/-- A call is given an id of its own. -/
theorem Tracks.call (tracks : Tracks history ids) (rawId : String) :
    Tracks (history ++ [(.call rawId, (ids.assign rawId).2)]) (ids.assign rawId).1 := by
  have fresh : (ids.assign rawId).2 ∉ givenIds history := by
    rw [← List.mem_reverse, ← tracks.used]
    exact uniqueResponsesCallId_not_mem rawId _ ids.used
  have called : (IdEvent.call rawId).isCall = true := rfl
  constructor
  · rw [givenIds_concat, if_pos called, List.reverse_append, ← tracks.used]
    rfl
  · rw [givenIds_concat, if_pos called, List.nodup_append]
    refine ⟨tracks.distinct, List.nodup_singleton _, fun given mem other same => ?_⟩
    rw [List.mem_singleton.mp same]
    rintro rfl
    exact fresh mem
  · intro other
    rw [callIdsOf_concat]
    change (Assoc.lookup other (Assoc.insert rawId _ ids.counts)).getD 0 = _
    rw [Assoc.lookup_insert]
    by_cases same : other = rawId
    · subst same
      rw [if_pos rfl, if_pos rfl, Option.getD_some, tracks.counted, List.length_append]
      rfl
    · rw [if_neg same, if_neg (fun event => same (IdEvent.call.inj event).symm), tracks.counted,
        List.append_nil]
  · intro other timely
    rw [List.map_append] at timely
    have earlier := tracks.waiting other timely.of_append
    rw [callIdsOf_concat, outputIdsOf_concat, if_neg (nofun : IdEvent.call rawId ≠ .output other),
      List.append_nil]
    change _ = _ ++ (Assoc.lookup other (Assoc.insert rawId _ ids.remap)).getD []
    rw [Assoc.lookup_insert]
    by_cases same : other = rawId
    · subst same
      rw [if_pos rfl, if_pos rfl, Option.getD_some, ← List.append_assoc, ← earlier]
      rfl
    · rw [if_neg same, if_neg (fun event => same (IdEvent.call.inj event).symm), List.append_nil]
      exact earlier
  · refine tracks.kept_concat fun other same nonempty first unused => ?_
    cases same
    have counted := tracks.counted rawId
    rw [first] at counted
    change uniqueResponsesCallId rawId ((Assoc.lookup rawId ids.counts).getD 0) ids.used = rawId
    rw [counted]
    refine uniqueResponsesCallId_first nonempty ?_
    rwa [tracks.used, List.mem_reverse]

/-- An output that comes in time takes the id of the first call that waits for one. -/
theorem Tracks.output (tracks : Tracks history ids) (rawId : String) :
    Tracks (history ++ [(.output rawId, (ids.resolve rawId).2)]) (ids.resolve rawId).1 := by
  have notCalled : ¬ (IdEvent.output rawId).isCall = true := Bool.false_ne_true
  have unchanged : (ids.resolve rawId).1.used = ids.used ∧
      (ids.resolve rawId).1.counts = ids.counts := by
    unfold resolve
    split <;> exact ⟨rfl, rfl⟩
  constructor
  · rw [givenIds_concat, if_neg notCalled, List.append_nil, unchanged.1, tracks.used]
  · rw [givenIds_concat, if_neg notCalled, List.append_nil]
    exact tracks.distinct
  · intro other
    rw [callIdsOf_concat, if_neg (nofun : IdEvent.output rawId ≠ .call other), List.append_nil,
      unchanged.2, tracks.counted]
  · intro other timely
    have whole := timely _ List.prefix_rfl
    rw [List.map_append] at timely
    have earlier := tracks.waiting other timely.of_append
    rw [callIdsOf_concat, outputIdsOf_concat, if_neg (nofun : IdEvent.output rawId ≠ .call other),
      List.append_nil]
    by_cases same : other = rawId
    · subst same
      -- A call waits: there are more calls than outputs so far.
      have lengths := congrArg List.length earlier
      rw [List.length_append, length_callIdsOf, length_outputIdsOf] at lengths
      simp only [List.map_append, List.map_cons, List.map_nil, List.count_append,
        List.count_singleton] at whole
      cases found : Assoc.lookup other ids.remap with
      | none =>
          rw [found] at lengths
          simp at lengths whole
          omega
      | some waiting =>
          cases waiting with
          | nil =>
              rw [found] at lengths
              simp at lengths whole
              omega
          | cons id waiting =>
              have resolved : ids.resolve other =
                  ({ ids with remap := Assoc.insert other waiting ids.remap }, id) := by
                rw [resolve, found]
              rw [resolved, if_pos rfl, Assoc.lookup_insert_self, Option.getD_some, earlier, found,
                Option.getD_some, List.append_assoc]
              rfl
    · have elsewhere : Assoc.lookup other (ids.resolve rawId).1.remap =
          Assoc.lookup other ids.remap := by
        unfold resolve
        split
        · exact Assoc.lookup_insert_of_ne same _ _
        · rfl
      rw [if_neg (fun event => same (IdEvent.output.inj event).symm), List.append_nil, elsewhere]
      exact earlier
  · exact tracks.kept_concat fun other same => nomatch same

theorem Tracks.take (tracks : Tracks history ids) (event : IdEvent) :
    Tracks (history ++ [(event, (ids.take event).2)]) (ids.take event).1 := by
  cases event with
  | call rawId => exact tracks.call rawId
  | output rawId => exact tracks.output rawId

/-- Along every run the ids fit what has been read. -/
theorem Tracks.run (tracks : Tracks history ids) (events : List IdEvent) :
    ∃ last, Tracks (history ++ ids.history events) last := by
  induction events generalizing history ids with
  | nil =>
      rw [CallIds.history, Mealy.outputs_nil, List.append_nil]
      exact ⟨ids, tracks⟩
  | cons event events inductionHypothesis =>
      have whole : ids.history (event :: events) =
          [(event, (ids.take event).2)] ++ (ids.take event).1.history events := rfl
      rw [whole, ← List.append_assoc]
      exact inductionHypothesis (tracks.take event)

theorem map_fst_history (ids : CallIds) (events : List IdEvent) :
    (ids.history events).map Prod.fst = events := by
  induction events generalizing ids with
  | nil => rfl
  | cons event events inductionHypothesis =>
      exact congrArg (event :: ·) (inductionHypothesis (ids.take event).1)

end CallIds

/-! ## Input items -/

/-- The event of an item by its type. -/
def typedEvent (item : Json) : Option IdEvent :=
  match (item.index "type").asStr with
  | some "function_call" => some (.call ((responsesCallId item).getD ""))
  | some "function_call_output" => some (.output ((responsesCallId item).getD ""))
  | _ => none

/-- The event of an item that is read as a function call or as the output of one. -/
def eventOf (item : Json) : Option IdEvent :=
  if isOpaqueItem item then none
  else
    match item.index "content" with
    | .str _ => none
    | .arr _ => none
    | _ => typedEvent item

/-- Whether a block is a function call or the output of one, and its effective id. -/
def pairId : Content → Option (Bool × String)
  | .toolCall id _ _ callId _ none => some (true, callId.getD id)
  | .toolResult toolCallId _ _ _ _ none => some (false, toolCallId)
  | _ => none

/-- The ids of the blocks of the messages. -/
def pairIds (messages : List Message) : List (Bool × String) :=
  (messages.flatMap Message.content).filterMap pairId

theorem pairId_decodeInputPart {part : Json} {content : Content}
    (decoded : decodeInputPart part = some content) : pairId content = none := by
  unfold decodeInputPart at decoded
  have media {part : Json} (decoded : decodeResponsesMediaPart part = some content) :
      pairId content = none := by
    unfold decodeResponsesMediaPart at decoded
    split at decoded
    · split at decoded
      · cases decoded
        rfl
      · simp only at decoded
        split_ifs at decoded
        cases decoded
        rfl
    · split at decoded <;> cases decoded <;> rfl
    · cases decoded
  split at decoded
  · cases decoded
    rfl
  · cases decoded
    rfl
  · exact media decoded
  · exact media decoded
  · cases decoded

section

variable [FloatText]

theorem pairId_decodeInputCall (ids : CallIds) (item : Json) :
    pairId (decodeInputCall ids item).2 =
      some (true, (ids.assign ((responsesCallId item).getD "")).2) := by
  unfold decodeInputCall
  cases (item.index "id").asStr with
  | none => rfl
  | some itemRef => cases (item.index "call_id").asStr <;> rfl

theorem pairId_decodeTypedItem (ids : CallIds) (item : Json) :
    ((decodeTypedItem ids item).2.filterMap pairId =
        (typedEvent item).toList.map fun event => (event.isCall, (ids.take event).2)) ∧
      (decodeTypedItem ids item).1 =
        (typedEvent item).elim ids fun event => (ids.take event).1 := by
  unfold decodeTypedItem typedEvent
  split
  all_goals
    rename_i type_eq
    simp only [type_eq]
    first
    | exact ⟨rfl, rfl⟩
    | exact ⟨List.filterMap_cons_some (pairId_decodeInputCall ids item), rfl⟩

/-- An item brings the id that its event is given, and no other item brings one. -/
theorem pairId_decodeInputItem (ids : CallIds) (item : Json) :
    ((decodeInputItem ids item).2.filterMap pairId =
        (eventOf item).toList.map fun event => (event.isCall, (ids.take event).2)) ∧
      (decodeInputItem ids item).1 = (eventOf item).elim ids fun event => (ids.take event).1 := by
  unfold decodeInputItem eventOf
  by_cases isOpaque : isOpaqueItem item = true
  · rw [if_pos isOpaque, if_pos isOpaque]
    exact ⟨rfl, rfl⟩
  · rw [if_neg isOpaque, if_neg isOpaque]
    cases item.index "content" with
    | str text => exact ⟨rfl, rfl⟩
    | arr parts =>
        simp only
        split_ifs
        · exact ⟨rfl, rfl⟩
        · refine ⟨List.filterMap_eq_nil_iff.mpr fun content mem => ?_, rfl⟩
          obtain ⟨part, -, decoded⟩ := List.mem_filterMap.mp mem
          exact pairId_decodeInputPart decoded
    | _ => exact pairId_decodeTypedItem ids item

omit [FloatText] in
theorem content_push (preserve : Bool) (builder : InputBuilder) (role : Role)
    (content : List Content) :
    (builder.push preserve role content).messages.flatMap Message.content =
      builder.messages.flatMap Message.content ++ content := by
  unfold InputBuilder.push
  split_ifs with empty
  · simp [empty]
  · rcases List.eq_nil_or_concat' builder.messages with none | ⟨front, last, some⟩
    · simp [none]
    · simp only [some, List.getLast?_concat, List.dropLast_concat]
      split_ifs <;> simp

omit [FloatText] in
theorem callIds_push (preserve : Bool) (builder : InputBuilder) (role : Role)
    (content : List Content) :
    (builder.push preserve role content).callIds = builder.callIds := by
  unfold InputBuilder.push
  split_ifs
  · rfl
  · cases builder.messages.getLast? with
    | none => rfl
    | some message => simp only; split_ifs <;> rfl

/-- The blocks of a run have the ids of its history. -/
theorem pairIds_foldl (preserve : Bool) (entries : List (Json × Nat)) (builder : InputBuilder) :
    pairIds (entries.foldl (InputBuilder.add preserve) builder).messages =
      pairIds builder.messages ++
        (builder.callIds.history ((entries.map Prod.fst).filterMap eventOf)).map
          fun entry => (entry.1.isCall, entry.2) := by
  induction entries generalizing builder with
  | nil => simp [CallIds.history]
  | cons entry entries inductionHypothesis =>
      obtain ⟨brought, state⟩ := pairId_decodeInputItem builder.callIds entry.1
      have added : pairIds (builder.add preserve entry).messages = pairIds builder.messages ++
          (eventOf entry.1).toList.map fun event =>
            (event.isCall, (builder.callIds.take event).2) := by
        rw [← brought, pairIds, InputBuilder.add, content_push, List.filterMap_append]
        rfl
      have next : (builder.add preserve entry).callIds =
          (eventOf entry.1).elim builder.callIds fun event => (builder.callIds.take event).1 := by
        rw [← state, InputBuilder.add, callIds_push]
      rw [List.foldl_cons, inductionHypothesis, added, next, List.append_assoc]
      congr 1
      cases event_eq : eventOf entry.1 with
      | none =>
          rw [List.map_cons, List.filterMap_cons_none event_eq]
          rfl
      | some event =>
          rw [List.map_cons, List.filterMap_cons_some event_eq]
          rfl

end

/-! ## Requests -/

/-- The calls and outputs among the input items. -/
def eventsOf (body : Json) : List IdEvent :=
  ((body.index "input").asArray.getD []).filterMap eventOf

/-- The ids of calls are distinct, an id that is used first is kept, and outputs that come
after their calls have the ids of these calls in their order. -/
structure Paired (history : History) : Prop where
  distinct : (givenIds history).Nodup
  kept : ∀ front back rawId id, history = front ++ (.call rawId, id) :: back → rawId ≠ "" →
    callIdsOf rawId front = [] → rawId ∉ givenIds front → id = rawId
  answered : ∀ rawId, Timely rawId (history.map Prod.fst) →
    outputIdsOf rawId history <+: callIdsOf rawId history

theorem CallIds.Tracks.paired {history : History} {ids : CallIds} (tracks : ids.Tracks history) :
    Paired history where
  distinct := tracks.distinct
  kept := tracks.kept
  answered rawId timely := ⟨_, (tracks.waiting rawId timely).symm⟩

end TiyGate.Protocols.Responses

import TiyGate.Store.ArrivalOrder

/-!
# The captures of several attempts

Every attempt of a request leaves a capture, which a task of its own delivers to
the sink.  All captures are written to the same rows, and the one delivered last
wins, while a cost that has been computed stays: whether the rows show the last
attempt can be told from the order of the deliveries.
-/

namespace TiyGate.Store

open Core (Usage)
open Json (FloatText)

/-- An event as the gateway sends it: the counts are read from the captures,
and the cost is computed from the counts. -/
structure SentEvent where
  event : RequestEvent
  uncounted : event.tokens = none
  unpriced : event.cost = none

/-- An order in which the captures of the attempts are written, each at its
time: some before the event, and the others behind it. -/
structure Delivery (attempts : List ExchangeCapture) where
  before : List (String × ExchangeCapture)
  behind : List (String × ExchangeCapture)
  complete : ((before ++ behind).map Prod.snd).Perm attempts

section

variable [FloatText]

/-- The captures are written one after the other. -/
def OltpSink.writeCaptures (sink : OltpSink) (tables : Tables)
    (captures : List (String × ExchangeCapture)) : Tables :=
  captures.foldl (fun tables capture => sink.writeCapture capture.1 capture.2 tables) tables

/-- What the request leaves. -/
def Delivery.tables {attempts : List ExchangeCapture} (delivery : Delivery attempts)
    (sink : OltpSink) (sent : SentEvent) : Tables :=
  sink.writeCaptures
    (sink.writeRequestEvent sent.event (sink.writeCaptures {} delivery.before)) delivery.behind

/-- The usages that the captures carry. -/
def usages (captures : List (String × ExchangeCapture)) : List Usage :=
  captures.filterMap fun capture => capture.2.usage

/-- The usage of which the cost is computed: the one that is there when the
event comes, or else the first one that comes behind it. -/
def Delivery.pricedUsage {attempts : List ExchangeCapture} (delivery : Delivery attempts) :
    Option Usage :=
  (usages delivery.before).getLast?.or (usages delivery.behind).head?

/-- The cost of a usage under a model. -/
def OltpSink.costOf (sink : OltpSink) (virtualModel : String) (usage : Usage) : Option UInt64 :=
  (sink.computedCost virtualModel (.ofUsage usage)).map CostBreakdown.total

/-- The rows show this attempt: its payload, its counts, and no cost but the one
that is computed from them. -/
structure Shows (sink : OltpSink) (attempt : ExchangeCapture) (tables : Tables) : Prop where
  payload : tables.payload.map PayloadRow.columns = some (sink.captureToRow attempt)
  tokens : tables.log.map LogRow.tokens = some attempt.tokens
  cost : ∀ row cost, tables.log = some row → row.costs.cost = some cost →
    (sink.computedCost row.event.virtualModel row.tokens).map CostBreakdown.total = some cost

/-- The delivery leaves the last attempt in the rows: the capture delivered last
has the same payload, the usage delivered last is its usage, and the usage that
the cost is computed from costs as much. -/
structure Settled (sink : OltpSink) (virtualModel : String) {attempts : List ExchangeCapture}
    (last : ExchangeCapture) (delivery : Delivery attempts) : Prop where
  payload : ∀ delivered, (delivery.before ++ delivery.behind).getLast? = some delivered →
    sink.captureToRow delivered.2 = sink.captureToRow last
  tokens : (usages (delivery.before ++ delivery.behind)).getLast? = last.usage
  cost : ∀ usage priced, last.usage = some usage → delivery.pricedUsage = some priced →
    sink.costOf virtualModel priced = sink.costOf virtualModel usage

end

/-! ## The row of the log -/

/-- What a cost is computed from, and the cost. -/
structure PricedColumns where
  virtualModel : String := ""
  tokens : TokenColumns := {}
  costs : CostColumns := {}

def LogRow.priced (row : LogRow) : PricedColumns where
  virtualModel := row.event.virtualModel
  tokens := row.tokens
  costs := row.costs

/-- A row that is not there has no counts and no cost. -/
def pricedLog (log : Option LogRow) : PricedColumns :=
  log.elim {} LogRow.priced

variable {sink : OltpSink} {sent : SentEvent} {now virtualModel : String}

/-- A write-back to other columns. -/
theorem pricedLog_writeBack {change : LogRow → LogRow}
    (other : ∀ row, (change row).priced = row.priced) (log : Option LogRow) :
    pricedLog (writeBack now change log) = pricedLog log := by
  rw [writeBack]
  cases log with
  | none => exact other (.pending now)
  | some row => exact other row

theorem pricedLog_writeBack_elim {α : Type} (change : α → LogRow → LogRow)
    (other : ∀ value row, (change value row).priced = row.priced) (value : Option α)
    (log : Option LogRow) :
    pricedLog (value.elim log fun value => writeBack now (change value) log) = pricedLog log := by
  cases value with
  | none => rfl
  | some value => exact pricedLog_writeBack (other value) log

/-- A row that is there stays. -/
theorem isSome_elim_writeBack {α : Type} (change : α → LogRow → LogRow) (value : Option α)
    {log : Option LogRow} (there : log.isSome) :
    (value.elim log fun value => writeBack now (change value) log).isSome := by
  cases value with
  | none => exact there
  | some value => rfl

theorem priced_writeTruncation (reason : String) (row : LogRow) :
    (writeTruncation reason row).priced = row.priced := by
  rw [writeTruncation_eq]
  rfl

/-- A model that is not known yet costs nothing. -/
theorem computedCost_empty (tokens : TokenColumns) : sink.computedCost "" tokens = none := by
  rw [OltpSink.computedCost, if_pos]
  rfl

/-- No counts cost nothing. -/
theorem computedCost_uncounted : sink.computedCost virtualModel {} = none := by
  rw [OltpSink.computedCost, if_pos]
  exact Bool.or_true _

/-- A cost is computed once, or never. -/
theorem orComputed_kept {first second : Option CostBreakdown}
    (both : first.isSome = second.isSome) :
    (CostColumns.orComputed {} first).orComputed second = CostColumns.orComputed {} first := by
  cases first with
  | none =>
      cases second with
      | none => rfl
      | some bd => cases both
  | some bd => exact orComputed_of_isSome rfl second

/-- Whether a usage has a cost does not depend on it. -/
theorem isSome_costOf (virtualModel : String) (first second : Usage) :
    (sink.costOf virtualModel first).isSome = (sink.costOf virtualModel second).isSome := by
  rw [OltpSink.costOf, OltpSink.costOf, Option.isSome_map, Option.isSome_map]
  exact isSome_computedCost rfl rfl

/-- Counts tell the usage that they are of. -/
theorem elim_ofUsage_inj {first second : Option Usage}
    (same : first.elim {} TokenColumns.ofUsage = second.elim {} TokenColumns.ofUsage) :
    first = second := by
  cases first with
  | none =>
      cases second with
      | none => rfl
      | some other => cases congrArg TokenColumns.promptTokens same
  | some usage =>
      cases second with
      | none => cases congrArg TokenColumns.promptTokens same
      | some other =>
          rcases usage with ⟨_, _, _, _, _, _⟩
          rcases other with ⟨_, _, _, _, _, _⟩
          cases same
          rfl

/-- The columns after some captures: the counts are those of the latest usage,
and the cost is that of the one it was computed from. -/
structure PricedBy (sink : OltpSink) (virtualModel : String) (latest priced : Option Usage)
    (columns : PricedColumns) : Prop where
  model : columns.virtualModel = virtualModel
  tokens : columns.tokens = latest.elim {} .ofUsage
  costs : columns.costs =
    CostColumns.orComputed {} (priced.bind fun usage => sink.computedCost virtualModel (.ofUsage usage))
  both : priced.isSome = latest.isSome

section

variable [FloatText]

/-- The counts behind a capture are its counts, if it has any, and a cost is
computed if there is none. -/
theorem pricedLog_writeBacks (capture : ExchangeCapture) (log : Option LogRow) :
    pricedLog (sink.writeBacks now capture log) =
      { virtualModel := (pricedLog log).virtualModel
        tokens := capture.usage.elim (pricedLog log).tokens .ofUsage
        costs := (pricedLog log).costs.orComputed (sink.computedCost (pricedLog log).virtualModel
          (capture.usage.elim (pricedLog log).tokens .ofUsage)) } := by
  rw [OltpSink.writeBacks]
  rw [pricedLog_writeBack_elim (updateRequestFailure capture.failureClass) (fun _ _ => rfl),
    pricedLog_writeBack_elim updateRequestStreamDuration (fun _ _ => rfl),
    pricedLog_writeBack_elim updateRequestFinishReason (fun _ _ => rfl),
    pricedLog_writeBack_elim writeTruncation priced_writeTruncation]
  cases capture.usage with
  | none =>
      cases log with
      | none => rfl
      | some row => rfl
  | some usage =>
      cases log with
      | none => rfl
      | some row => rfl

variable {latest priced : Option Usage}

/-- A capture. -/
theorem PricedBy.writeBacks {log : Option LogRow} (capture : ExchangeCapture)
    (by_ : PricedBy sink virtualModel latest priced (pricedLog log)) :
    PricedBy sink virtualModel (capture.usage.or latest) (priced.or capture.usage)
      (pricedLog (sink.writeBacks now capture log)) := by
  rcases by_ with ⟨model, tokens, costs, both⟩
  have counted : capture.usage.elim (pricedLog log).tokens .ofUsage =
      (capture.usage.or latest).elim {} .ofUsage := by
    rw [tokens]
    cases capture.usage <;> rfl
  rw [pricedLog_writeBacks, counted, model, costs]
  refine ⟨rfl, rfl, ?_, ?_⟩
  · dsimp only
    cases priced with
    | none =>
        cases latest with
        | some usage => cases both
        | none =>
            cases capture.usage with
            | none => exact congrArg _ computedCost_uncounted
            | some usage => rfl
    | some first =>
        rw [Option.some_or, Option.bind_some]
        apply orComputed_kept
        cases latest with
        | none => cases both
        | some usage =>
            cases capture.usage with
            | none => exact isSome_computedCost rfl rfl
            | some other => exact isSome_computedCost rfl rfl
  · rw [Option.isSome_or, Option.isSome_or, both, Bool.or_comm]

theorem isSome_writeBacks (capture : ExchangeCapture) {log : Option LogRow}
    (there : log.isSome) : (sink.writeBacks now capture log).isSome := by
  rw [OltpSink.writeBacks]
  apply isSome_elim_writeBack (updateRequestFailure capture.failureClass)
  apply isSome_elim_writeBack updateRequestStreamDuration
  apply isSome_elim_writeBack updateRequestFinishReason
  apply isSome_elim_writeBack writeTruncation
  rw [Option.isSome_map]
  exact isSome_elim_writeBack updateRequestTokens capture.usage there

/-- All captures. -/
theorem PricedBy.writeCaptures {tables : Tables}
    (by_ : PricedBy sink virtualModel latest priced (pricedLog tables.log))
    (captures : List (String × ExchangeCapture)) :
    PricedBy sink virtualModel ((usages captures).getLast?.or latest)
      (priced.or (usages captures).head?) (pricedLog (sink.writeCaptures tables captures).log) := by
  induction captures generalizing tables latest priced with
  | nil =>
      rw [usages, List.filterMap_nil, List.getLast?_nil, Option.none_or, List.head?_nil,
        Option.or_none]
      exact by_
  | cons capture captures ih =>
      have first : PricedBy sink virtualModel (capture.2.usage.or latest) (priced.or capture.2.usage)
          (pricedLog (sink.writeCapture capture.1 capture.2 tables).log) :=
        by_.writeBacks capture.2
      have after := ih first
      have latest_eq : (usages (capture :: captures)).getLast?.or latest =
          (usages captures).getLast?.or (capture.2.usage.or latest) := by
        rw [usages, List.filterMap_cons]
        cases capture.2.usage with
        | none => rfl
        | some usage =>
            rw [List.getLast?_cons, ← usages]
            cases (usages captures).getLast? <;> rfl
      have priced_eq : priced.or (usages (capture :: captures)).head? =
          (priced.or capture.2.usage).or (usages captures).head? := by
        rw [usages, List.filterMap_cons, Option.or_assoc]
        cases capture.2.usage <;> rfl
      rw [latest_eq, priced_eq]
      exact after

end

variable {latest priced : Option Usage}

theorem coalesce_uncounted (tokens : TokenColumns) :
    (TokenColumns.ofEvent sent.event).coalesce tokens = tokens := by
  rw [TokenColumns.ofEvent, sent.uncounted]
  rfl

/-- The event says what the model is. -/
theorem PricedBy.writeRequestEvent {tables : Tables}
    (by_ : PricedBy sink "" latest priced (pricedLog tables.log)) :
    PricedBy sink sent.event.virtualModel latest latest
      (pricedLog (sink.writeRequestEvent sent.event tables).log) := by
  rcases by_ with ⟨_, tokens, costs, _⟩
  have free : (pricedLog tables.log).costs = {} := by
    rw [costs]
    cases priced with
    | none => rfl
    | some usage => exact congrArg (CostColumns.orComputed {}) (computedCost_empty _)
  have columns : pricedLog (sink.writeRequestEvent sent.event tables).log =
      { virtualModel := sent.event.virtualModel
        tokens := (pricedLog tables.log).tokens
        costs := (pricedLog tables.log).costs.orComputed
          (sink.computedCost sent.event.virtualModel (pricedLog tables.log).tokens) } := by
    rcases tables with ⟨log, payload⟩
    cases log with
    | none =>
        have uncounted : TokenColumns.ofEvent sent.event = {} := by
          rw [TokenColumns.ofEvent, sent.uncounted]
          rfl
        change PricedColumns.mk _ (TokenColumns.ofEvent sent.event)
          (CostColumns.orComputed { cost := sent.event.cost } _) = _
        rw [sent.unpriced]
        change PricedColumns.mk _ _ (CostColumns.orComputed {} (sink.computedCost
          sent.event.virtualModel (TokenColumns.ofEvent sent.event))) = _
        rw [uncounted]
        rfl
    | some row =>
        change PricedColumns.mk _ ((TokenColumns.ofEvent sent.event).coalesce row.tokens)
          (CostColumns.orComputed { row.costs with cost := sent.event.cost.or row.costs.cost }
            (sink.computedCost sent.event.virtualModel
              ((TokenColumns.ofEvent sent.event).coalesce row.tokens))) = _
        rw [coalesce_uncounted, sent.unpriced, Option.none_or]
        rfl
  rw [columns, free, tokens]
  refine ⟨rfl, rfl, ?_, rfl⟩
  cases latest with
  | none => exact congrArg (CostColumns.orComputed {}) computedCost_uncounted
  | some usage => rfl

/-! ## The row of the payload -/

/-- The payload is not being archived. -/
def Unarchived (payload : Option PayloadRow) : Prop :=
  ∀ row, payload = some row → row.archiveStatus.keepsPayload = false

section

variable [FloatText]

/-- The payload behind a capture is its payload. -/
theorem payload_writeCapture (capture : ExchangeCapture) {tables : Tables}
    (unarchived : Unarchived tables.payload) :
    (sink.writeCapture now capture tables).payload.map PayloadRow.columns =
        some (sink.captureToRow capture) ∧
      Unarchived (sink.writeCapture now capture tables).payload := by
  rw [OltpSink.writeCapture]
  cases eq : tables.payload with
  | none => exact ⟨rfl, fun row written => by cases written; rfl⟩
  | some row =>
      have free := unarchived row eq
      rw [upsertPayload, free]
      exact ⟨rfl, fun row written => by cases written; rfl⟩

theorem unarchived_writeCaptures (captures : List (String × ExchangeCapture)) {tables : Tables}
    (unarchived : Unarchived tables.payload) :
    Unarchived (sink.writeCaptures tables captures).payload := by
  induction captures generalizing tables with
  | nil => exact unarchived
  | cons capture captures ih => exact ih (payload_writeCapture capture.2 unarchived).2

/-- The payload behind all captures is that of the last one. -/
theorem payload_writeCaptures (captures : List (String × ExchangeCapture)) {tables : Tables}
    (unarchived : Unarchived tables.payload) :
    (sink.writeCaptures tables captures).payload.map PayloadRow.columns =
      (captures.getLast?.map fun delivered => sink.captureToRow delivered.2).or
        (tables.payload.map PayloadRow.columns) := by
  induction captures using List.reverseRecOn with
  | nil => rfl
  | append_singleton captures capture _ =>
      rw [List.getLast?_concat, Option.map_some, Option.some_or]
      rw [OltpSink.writeCaptures, List.foldl_concat]
      exact (payload_writeCapture capture.2 (unarchived_writeCaptures captures unarchived)).1

/-! ## All deliveries -/

namespace Delivery

variable {attempts : List ExchangeCapture} (delivery : Delivery attempts)

/-- The counts and the cost that a delivery leaves. -/
theorem pricedBy (sent : SentEvent) :
    PricedBy sink sent.event.virtualModel
      (usages (delivery.before ++ delivery.behind)).getLast? delivery.pricedUsage
      (pricedLog (delivery.tables sink sent).log) := by
  have start : PricedBy sink "" none none (pricedLog ({} : Tables).log) := ⟨rfl, rfl, rfl, rfl⟩
  have before := @PricedBy.writeRequestEvent sink sent _ _ _ (start.writeCaptures delivery.before)
  rw [Option.or_none] at before
  have behind := before.writeCaptures delivery.behind
  have latest : (usages delivery.behind).getLast?.or (usages delivery.before).getLast? =
      (usages (delivery.before ++ delivery.behind)).getLast? := by
    rw [usages, usages, usages, List.filterMap_append, List.getLast?_append]
  rw [latest] at behind
  exact behind

/-- The payload that a delivery leaves. -/
theorem payload (sent : SentEvent) :
    (delivery.tables sink sent).payload.map PayloadRow.columns =
      (delivery.before ++ delivery.behind).getLast?.map fun delivered =>
        sink.captureToRow delivered.2 := by
  have fresh : Unarchived ({} : Tables).payload := by
    rintro row ⟨⟩
  have before := @payload_writeCaptures sink _ delivery.before _ fresh
  have unarchived := @unarchived_writeCaptures sink _ delivery.before _ fresh
  have sent_unarchived :
      Unarchived (sink.writeRequestEvent sent.event (sink.writeCaptures {} delivery.before)).payload :=
    unarchived
  rw [tables, payload_writeCaptures delivery.behind sent_unarchived, List.getLast?_append,
    Option.map_or]
  apply congrArg (Option.or _)
  change (sink.writeCaptures {} delivery.before).payload.map PayloadRow.columns = _
  rw [before]
  exact Option.or_none

/-- The event makes a row, if no capture has. -/
theorem isSome_log (sent : SentEvent) : (delivery.tables sink sent).log.isSome := by
  have kept : ∀ (captures : List (String × ExchangeCapture)) (tables : Tables),
      tables.log.isSome → (sink.writeCaptures tables captures).log.isSome := by
    intro captures
    induction captures with
    | nil => exact fun tables there => there
    | cons capture captures ih =>
        intro tables there
        apply ih
        exact isSome_writeBacks capture.2 there
  exact kept delivery.behind _ rfl

/-- The rows show the last attempt exactly if the delivery has settled on it. -/
theorem shows_iff (sent : SentEvent) (last : ExchangeCapture)
    (delivered : delivery.before ++ delivery.behind ≠ []) :
    Shows sink last (delivery.tables sink sent) ↔
      Settled sink sent.event.virtualModel last delivery := by
  rcases Option.isSome_iff_exists.mp (@Delivery.isSome_log sink _ _ delivery sent) with ⟨row, there⟩
  have by_ := @Delivery.pricedBy sink _ _ delivery sent
  rw [there] at by_
  rcases by_ with ⟨model, tokens, costs, both⟩
  have payload := @Delivery.payload sink _ _ delivery sent
  rw [List.getLast?_eq_some_getLast delivered, Option.map_some] at payload
  have cost : row.costs.cost = delivery.pricedUsage.bind (sink.costOf sent.event.virtualModel) := by
    change (pricedLog (some row)).costs.cost = _
    rw [costs]
    cases delivery.pricedUsage with
    | none => rfl
    | some usage =>
        rw [Option.bind_some, Option.bind_some, OltpSink.costOf]
        cases sink.computedCost sent.event.virtualModel (.ofUsage usage) <;> rfl
  change row.event.virtualModel = _ at model
  change row.tokens = _ at tokens
  -- what the cost of the row has to be
  have computed : ∀ usage, (usages (delivery.before ++ delivery.behind)).getLast? = some usage →
      (sink.computedCost row.event.virtualModel row.tokens).map CostBreakdown.total =
        sink.costOf sent.event.virtualModel usage := by
    intro usage latest
    rw [model, tokens, latest]
    rfl
  constructor
  · rintro ⟨payload_shown, tokens_shown, cost_shown⟩
    have counts : (usages (delivery.before ++ delivery.behind)).getLast? = last.usage := by
      rw [there, Option.map_some, Option.some.injEq] at tokens_shown
      exact elim_ofUsage_inj (tokens.symm.trans tokens_shown)
    constructor
    · intro capture is_last
      rw [List.getLast?_eq_some_getLast delivered] at is_last
      cases is_last
      exact Option.some.inj (payload.symm.trans payload_shown)
    · exact counts
    · intro usage priced is_usage is_priced
      have latest := computed usage (counts.trans is_usage)
      rw [is_priced, Option.bind_some] at cost
      cases amount : sink.costOf sent.event.virtualModel priced with
      | some value => exact (latest.symm.trans (cost_shown row value there (cost.trans amount))).symm
      | none =>
          have both_none := @isSome_costOf sink sent.event.virtualModel priced usage
          rw [amount] at both_none
          exact (Option.not_isSome_iff_eq_none.mp (by rw [← both_none]; exact Bool.false_ne_true)).symm
  · rintro ⟨payload_same, counts, cost_same⟩
    constructor
    · rw [payload]
      exact congrArg some (payload_same _ (List.getLast?_eq_some_getLast delivered))
    · rw [there, Option.map_some, tokens, counts]
      rfl
    · intro other amount is_row is_cost
      cases there.symm.trans is_row
      cases is_priced : delivery.pricedUsage with
      | none =>
          rw [is_priced, Option.bind_none] at cost
          cases cost.symm.trans is_cost
      | some priced =>
          rw [is_priced] at both
          rcases Option.isSome_iff_exists.mp both.symm with ⟨usage, latest⟩
          rw [is_priced, Option.bind_some] at cost
          rw [computed usage latest, ← cost_same usage priced (counts.symm.trans latest) is_priced]
          exact cost.symm.trans is_cost

omit [FloatText] in
/-- There is an attempt, so a capture is delivered. -/
theorem delivered_ne_nil {earlier : List ExchangeCapture} {last : ExchangeCapture}
    (delivery : Delivery (earlier ++ [last])) : delivery.before ++ delivery.behind ≠ [] := by
  intro nothing
  have complete := delivery.complete.length_eq
  rw [nothing, List.length_append] at complete
  cases complete

end Delivery

/-- The rows show the last attempt in exactly the deliveries that settle on it. -/
theorem shows_last_iff (sink : OltpSink) (sent : SentEvent) (earlier : List ExchangeCapture)
    (last : ExchangeCapture) (delivery : Delivery (earlier ++ [last])) :
    Shows sink last (delivery.tables sink sent) ↔
      Settled sink sent.event.virtualModel last delivery :=
  delivery.shows_iff sent last delivery.delivered_ne_nil

end

/-- A sink that keeps everything and has no prices. -/
def plainSink : OltpSink where
  redactHeadersJson := fun _ => none
  prepareBody := id
  parseSseToJson := fun _ => none
  pricing := fun _ => none

/-- An event that is sent when a request succeeds. -/
def succeeded : SentEvent where
  event :=
    { timestamp := "t", virtualModel := "gpt", ingressProtocol := "chat", status := .success,
      httpStatus := some 200 }
  uncounted := rfl
  unpriced := rfl

/-- An attempt that fails, and one on another target that succeeds. -/
def failing : ExchangeCapture where
  egressPath := "first"
  upstreamStatus := some 503

def succeeding : ExchangeCapture where
  egressPath := "second"
  upstreamStatus := some 200

/-- The capture of the second attempt is delivered first. -/
def overtaken : Delivery ([failing] ++ [succeeding]) where
  before := []
  behind := [("t1", succeeding), ("t2", failing)]
  complete := List.Perm.swap _ _ _

/-- The payload of the first attempt stays. -/
theorem not_shows_overtaken :
    ¬ @Shows FloatText.integersOnly plainSink succeeding
      (@Delivery.tables FloatText.integersOnly _ overtaken plainSink succeeded) := by
  rintro ⟨payload, _, _⟩
  revert payload
  decide +kernel

end TiyGate.Store

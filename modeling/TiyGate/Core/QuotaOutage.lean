import TiyGate.Core.DistributedQuota

/-!
# Quotas while Redis is away

The quota in Redis answers a call by itself when the connection or one of its scripts
fails: the call is allowed.  The quota in memory, given the same calls, still counts.
The two are compared along runs of calls, through what the calls ask of each bucket.
-/

namespace TiyGate.Core

/-! ## Calls and failures -/

/-- A call under some limits, and what Redis does while it lasts: whether the connection
comes about, and what the script of a bucket answers, if it does not fail. -/
structure RemoteCall extends QuotaCall where
  spec : QuotaSpec
  connected : Bool
  reply : QuotaKind → Option Int

/-- The scripts of a call, one after the other.  The first failure ends them. -/
def runScripts (reply : QuotaKind → Option Int) : List QuotaCheck → QuotaDecision
  | [] => .allow none
  | check :: checks =>
      match reply check.kind with
      | some count =>
          if count = -1 then .deny check.kind.window check.limit check.kind
          else runScripts reply checks
      | none => .allow none

/-- `check_and_consume` of the quota in Redis. -/
def redisCheckAndConsume (call : RemoteCall) : QuotaDecision :=
  let checks := call.spec.checks call.tokens
  if checks.isEmpty then .allow none
  else if call.connected then runScripts call.reply checks
  else .allow none

/-- Redis fails during the call: there is nothing to ask it, the connection fails, or a
script does while those in front of it have counted. -/
def RemoteCall.Outage (call : RemoteCall) : Prop :=
  call.spec.checks call.tokens = [] ∨ call.connected = false ∨
    ∃ front check back, call.spec.checks call.tokens = front ++ check :: back ∧
      call.reply check.kind = none ∧ ∀ earlier ∈ front, call.reply earlier.kind ≠ some (-1)

/-- The quota that is built: in Redis if there is a client, else in memory. -/
inductive RedisQuota
  | redis
  | memory (quota : InMemoryQuota)

/-- The feature may be off, and the client may refuse the URL. -/
def RedisQuota.new (redisFeature : Bool) (opens : String → Bool) (url : Option String) :
    RedisQuota :=
  if redisFeature && url.any opens then .redis else .memory []

/-- A call of the quota in memory, which says whether it is allowed. -/
def InMemoryQuota.step (quota : InMemoryQuota) (call : RemoteCall) : InMemoryQuota × List Bool :=
  let (next, decision) := checkAndConsume call.spec call.tokens call.clock quota call.keyId
  (next, [decision.isAllowed])

def RedisQuota.step : RedisQuota → RemoteCall → RedisQuota × List Bool
  | redis, call => (redis, [(redisCheckAndConsume call).isAllowed])
  | memory quota, call => (memory (quota.step call).1, (quota.step call).2)

/-! ## What the calls ask for -/

/-- What is asked of a bucket: when its window began, and the units that calls wanted of
it since then, whether they got them or not. -/
structure Demand where
  windowStartMs : UInt64 := 0
  units : Nat := 0

namespace Demand

/-- In a new window nothing has been asked for. -/
def rolled (demand : Demand) (window now : UInt64) : Demand :=
  if window ≤ saturatingSub now demand.windowStartMs then ⟨now, 0⟩ else demand

/-- The bucket when a call checks it. -/
def checked (demand : Demand) (call : RemoteCall) (kind : QuotaKind) : Demand :=
  demand.rolled kind.window (call.clock (call.spec.toConsume.idxOf kind))

/-- The bucket behind a call.  The clock is read again before the units are added. -/
def after (demand : Demand) (call : RemoteCall) (kind : QuotaKind) : Demand :=
  if kind ∈ call.spec.toConsume then
    let charged := (demand.checked call kind).rolled kind.window
      (call.clock (call.spec.toConsume.length + call.spec.toConsume.idxOf kind))
    { charged with units := charged.units + (kind.increment call.tokens).toNat }
  else demand

/-- The units of the call, on top of those before, are within its limit.  The count stops
at the largest word, and the sum is one of words. -/
def HasRoom (demand : Demand) (call : RemoteCall) (kind : QuotaKind) : Prop :=
  ∀ limit, call.spec.limit kind = some limit →
    (min (demand.checked call kind).units (2 ^ 64 - 1) + (kind.increment call.tokens).toNat) %
      2 ^ 64 ≤ limit.toNat

/-- The counter of a bucket that was given everything it was asked for. -/
def counter (demand : Demand) : WindowCounter :=
  ⟨demand.windowStartMs, .ofNat (min demand.units (2 ^ 64 - 1))⟩

end Demand

abbrev Demands := String → QuotaKind → Demand

def Demands.after (demands : Demands) (call : RemoteCall) : Demands :=
  fun keyId kind =>
    if keyId = call.keyId then (demands keyId kind).after call kind else demands keyId kind

/-- What a run of calls asks of the buckets. -/
def Demands.of (calls : List RemoteCall) : Demands :=
  calls.foldl Demands.after fun _ _ => {}

/-! ## The two quotas on a call -/

theorem runScripts_of_failure {reply : QuotaKind → Option Int} {front back : List QuotaCheck}
    {check : QuotaCheck} (failed : reply check.kind = none)
    (counted : ∀ earlier ∈ front, reply earlier.kind ≠ some (-1)) :
    (runScripts reply (front ++ check :: back)).isAllowed = true := by
  induction front with
  | nil => simp [runScripts, failed, QuotaDecision.isAllowed]
  | cons first front ih =>
      have passed := counted first List.mem_cons_self
      have later := ih fun earlier mem => counted earlier (List.mem_cons_of_mem first mem)
      cases answer : reply first.kind with
      | none => simp [runScripts, answer, QuotaDecision.isAllowed]
      | some count =>
          have positive : count ≠ -1 := fun minusOne => passed (minusOne ▸ answer)
          simpa [runScripts, answer, positive] using later

/-- Every failure allows the call. -/
theorem redisCheckAndConsume_of_outage {call : RemoteCall} (outage : call.Outage) :
    (redisCheckAndConsume call).isAllowed = true := by
  unfold redisCheckAndConsume
  rcases outage with nothing | away | ⟨front, check, back, checks, failed, counted⟩
  · simp [nothing, QuotaDecision.isAllowed]
  · simp only [away, Bool.false_eq_true, if_false]
    split <;> rfl
  · have allowed := @runScripts_of_failure _ _ back _ failed counted
    cases call.connected with
    | false => simp [QuotaDecision.isAllowed]
    | true => simpa [checks] using allowed

theorem toNat_saturatingAdd_eq_min (a b : UInt64) :
    (saturatingAdd a b).toNat = min (a.toNat + b.toNat) (2 ^ 64 - 1) := by
  have first := a.toNat_lt
  have second := b.toNat_lt
  unfold saturatingAdd
  split
  · rename_i le
    rw [UInt64.le_iff_toNat_le, UInt64.toNat_add] at le
    rw [UInt64.toNat_add]
    omega
  · rename_i wrapped
    rw [UInt64.le_iff_toNat_le, UInt64.toNat_add] at wrapped
    have largest : (18446744073709551615 : UInt64).toNat = 2 ^ 64 - 1 := rfl
    omega

namespace Demand

theorem counter_rolled (demand : Demand) (window now : UInt64) :
    (demand.rolled window now).counter = demand.counter.roll window now := by
  unfold rolled WindowCounter.roll
  by_cases expired : window ≤ saturatingSub now demand.windowStartMs
  · rw [if_pos expired, if_pos (show _ ≤ saturatingSub now demand.counter.windowStartMs from expired)]
    rfl
  · rw [if_neg expired, if_neg (show ¬ _ ≤ saturatingSub now demand.counter.windowStartMs from expired)]

theorem toNat_counter_used (demand : Demand) :
    demand.counter.used.toNat = min demand.units (2 ^ 64 - 1) := by
  have small : min demand.units (2 ^ 64 - 1) < 2 ^ 64 := by omega
  exact UInt64.toNat_ofNat_of_lt small

theorem counter_add (demand : Demand) (more : UInt64) :
    counter { demand with units := demand.units + more.toNat } = demand.counter.charge more := by
  have used := demand.toNat_counter_used
  refine congrArg (WindowCounter.mk demand.windowStartMs) (UInt64.toNat_inj.mp ?_)
  rw [toNat_saturatingAdd_eq_min, used]
  have small : min (demand.units + more.toNat) (2 ^ 64 - 1) < 2 ^ 64 := by omega
  refine (UInt64.toNat_ofNat_of_lt small).trans ?_
  omega

/-- A bucket has no room when the code finds it so. -/
theorem hasRoom_iff (demand : Demand) (call : RemoteCall) (kind : QuotaKind) :
    demand.HasRoom call kind ↔
      ¬ Exceeds call.spec call.tokens kind (demand.checked call kind).counter.used := by
  unfold HasRoom Exceeds
  rw [not_exists]
  refine forall_congr' fun limit => ?_
  rw [not_and, UInt64.not_lt, UInt64.le_iff_toNat_le, UInt64.toNat_add, toNat_counter_used]

end Demand

/-! ## The quota in memory on a call -/

section Memory

variable (spec : QuotaSpec) (tokens : UInt64) (clock : Clock)

theorem checkRoom_cons_of_room {counters : Counters} {reading : Nat} {kind : QuotaKind}
    (kinds : List QuotaKind)
    (room : ¬ Exceeds spec tokens kind
      ((counters.of kind).roll kind.window (clock reading)).used) :
    checkRoom spec tokens clock counters reading (kind :: kinds) =
      checkRoom spec tokens clock
        (counters.put kind ((counters.of kind).roll kind.window (clock reading)))
        (reading + 1) kinds := by
  cases limited : spec.limit kind with
  | none =>
      simp only [checkRoom, WindowCounter.snapshot, limited]
  | some limit =>
      have fits := fun full => room ⟨limit, limited, full⟩
      simp only [checkRoom, WindowCounter.snapshot, limited]
      exact if_neg fits

/-- The first phase finds room if each bucket has it when it is looked at. -/
theorem checkRoom_of_room {counters : Counters} {reading : Nat} {kinds : List QuotaKind}
    (nodup : kinds.Nodup)
    (room : ∀ kind place, (kind, place) ∈ kinds.zipIdx reading →
      ¬ Exceeds spec tokens kind ((counters.of kind).roll kind.window (clock place)).used) :
    (checkRoom spec tokens clock counters reading kinds).2 = none := by
  induction kinds generalizing counters reading with
  | nil => rfl
  | cons first kinds ih =>
      rw [List.nodup_cons] at nodup
      rw [checkRoom_cons_of_room spec tokens clock kinds (room first reading (by simp))]
      refine ih nodup.2 fun kind place mem => ?_
      have other : kind ≠ first := by
        rintro rfl
        exact nodup.1 (List.fst_mem_of_mem_zipIdx mem)
      rw [Counters.of_put, if_neg other]
      exact room kind place (by simp [List.zipIdx_cons, mem])

/-- The second phase charges each of its buckets at its own reading of the clock. -/
theorem commit_charge {counters : Counters} {reading : Nat} {kinds : List QuotaKind}
    (nodup : kinds.Nodup) {kind : QuotaKind} {place : Nat}
    (mem : (kind, place) ∈ kinds.zipIdx reading) :
    (commit tokens clock counters reading kinds).of kind =
      ((counters.of kind).roll kind.window (clock place)).charge (kind.increment tokens) := by
  induction kinds generalizing counters reading with
  | nil => cases mem
  | cons first kinds ih =>
      rw [List.nodup_cons] at nodup
      rw [List.zipIdx_cons, List.mem_cons] at mem
      rcases mem with here | later
      · cases here
        have kept := (of_commit tokens clock (counters.put kind (((counters.of kind).roll
          kind.window (clock place)).charge (kind.increment tokens))) (place + 1) nodup.2
          kind).resolve_right fun charged => nodup.1 charged.1
        refine kept.2.trans ?_
        rw [Counters.of_put, if_pos rfl]
      · have other : kind ≠ first := by
          rintro rfl
          exact nodup.1 (List.fst_mem_of_mem_zipIdx later)
        refine (ih nodup.2 later).trans ?_
        rw [Counters.of_put, if_neg other]

end Memory

theorem mem_zipIdx_idxOf {kinds : List QuotaKind} {kind : QuotaKind} (mem : kind ∈ kinds)
    (start : Nat) : (kind, start + kinds.idxOf kind) ∈ kinds.zipIdx start := by
  rw [List.mk_add_mem_zipIdx_iff_getElem?]
  exact List.getElem?_idxOf mem

theorem eq_idxOf_of_mem_zipIdx {kinds : List QuotaKind} (nodup : kinds.Nodup) {kind : QuotaKind}
    {place : Nat} (mem : (kind, place) ∈ kinds.zipIdx) : place = kinds.idxOf kind := by
  rw [List.mk_mem_zipIdx_iff_getElem?] at mem
  obtain ⟨small, found⟩ := List.getElem?_eq_some_iff.mp mem
  rw [← found, nodup.idxOf_getElem]

section Call

variable {counters : Counters} {demand : QuotaKind → Demand} (call : RemoteCall)

/-- A call finds room in buckets that have been given everything if what it asks for fits
in as well. -/
theorem isAllowed_consume_iff (counted : ∀ kind, counters.of kind = (demand kind).counter) :
    (consume call.spec call.tokens call.clock counters).2.isAllowed = true ↔
      ∀ kind, (demand kind).HasRoom call kind := by
  have looked : ∀ kind, (counters.of kind).roll kind.window
      (call.clock (call.spec.toConsume.idxOf kind)) = ((demand kind).checked call kind).counter := by
    intro kind
    rw [counted, ← Demand.counter_rolled]
    rfl
  constructor
  · intro allowed kind
    rcases consume_cases call.spec call.tokens call.clock counters with
      ⟨denied, -⟩ | ⟨-, -, charges⟩
    · exact nomatch allowed.symm.trans denied
    · rw [Demand.hasRoom_iff, ← looked]
      rintro ⟨limit, limited, full⟩
      have mem := mem_zipIdx_idxOf (QuotaSpec.mem_toConsume limited) 0
      rw [Nat.zero_add] at mem
      exact (charges kind _ mem).1 ⟨limit, limited, full⟩
  · intro room
    have passed := @checkRoom_of_room call.spec call.tokens call.clock counters 0 _
      call.spec.nodup_toConsume fun kind place mem => by
        rw [eq_idxOf_of_mem_zipIdx call.spec.nodup_toConsume mem, looked]
        exact ((demand kind).hasRoom_iff call kind).mp (room kind)
    unfold consume
    generalize checkRoom call.spec call.tokens call.clock counters 0 call.spec.toConsume = checked
      at passed
    obtain ⟨checked, decision⟩ := checked
    cases passed
    rfl

/-- What an allowed call asks for is what it is given. -/
theorem consume_counted (counted : ∀ kind, counters.of kind = (demand kind).counter)
    (allowed : (consume call.spec call.tokens call.clock counters).2.isAllowed = true)
    (kind : QuotaKind) :
    (consume call.spec call.tokens call.clock counters).1.of kind =
      ((demand kind).after call kind).counter := by
  have denies := isAllowed_of_checkRoom call.spec call.tokens call.clock counters 0
    call.spec.toConsume
  have kept := rolls_checkRoom call.spec call.tokens call.clock counters 0 call.spec.toConsume
  have room := @room_of_checkRoom call.spec call.tokens call.clock counters 0 _
    call.spec.nodup_toConsume
  unfold consume at allowed ⊢
  generalize checkRoom call.spec call.tokens call.clock counters 0 call.spec.toConsume = checked
    at denies kept room allowed
  obtain ⟨checked, decision⟩ := checked
  cases decision with
  | some denied => exact nomatch allowed.symm.trans (denies denied rfl)
  | none =>
      unfold Demand.after
      by_cases charged : kind ∈ call.spec.toConsume
      · have first := mem_zipIdx_idxOf charged 0
        rw [Nat.zero_add] at first
        have second := @commit_charge call.tokens call.clock checked _ _
          call.spec.nodup_toConsume _ _ (mem_zipIdx_idxOf charged call.spec.toConsume.length)
        rw [if_pos charged, Demand.counter_add, Demand.counter_rolled, Demand.checked,
          Demand.counter_rolled, ← counted, ← (room rfl first).1]
        exact second
      · have untouched := (of_commit call.tokens call.clock checked call.spec.toConsume.length
          call.spec.nodup_toConsume kind).resolve_right fun taken => charged taken.1
        rw [if_neg charged, ← counted, ← (kept kind).2 charged]
        exact untouched.2

end Call

/-! ## Runs -/

/-- The buckets have been given all they were asked for. -/
def Demands.Counted (demands : Demands) (quota : InMemoryQuota) : Prop :=
  ∀ keyId kind, quota.counter keyId kind = (demands keyId kind).counter

theorem Demands.Counted.step {demands : Demands} {quota : InMemoryQuota}
    (counted : demands.Counted quota) (call : RemoteCall) :
    ∃ allowed, (quota.step call).2 = [allowed] ∧
      (allowed = true ↔ ∀ kind, (demands call.keyId kind).HasRoom call kind) ∧
      (allowed = true → (demands.after call).Counted (quota.step call).1) := by
  have here := counted call.keyId
  refine ⟨_, rfl, isAllowed_consume_iff call here, fun allowed keyId kind => ?_⟩
  have after : (quota.step call).1.counter keyId kind =
      if keyId = call.keyId then
        (consume call.spec call.tokens call.clock (quota.countersOf call.keyId)).1.of kind
      else quota.counter keyId kind := by
    simp only [InMemoryQuota.step, checkAndConsume, InMemoryQuota.counter,
      InMemoryQuota.countersOf, Assoc.lookup_insert]
    split <;> rfl
  rw [after, Demands.after]
  by_cases same : keyId = call.keyId
  · rw [if_pos same, if_pos same, consume_counted call here allowed, same]
  · rw [if_neg same, if_neg same, counted]

/-- Every call asks for no more than there is, if all those in front of it were allowed. -/
def Demands.Fit : Demands → List RemoteCall → Prop
  | _, [] => True
  | demands, call :: calls =>
      (∀ kind, (demands call.keyId kind).HasRoom call kind) ∧ Fit (demands.after call) calls

theorem Demands.fit_iff (demands : Demands) (calls : List RemoteCall) :
    demands.Fit calls ↔ ∀ before call after, calls = before ++ call :: after →
      ∀ kind, (before.foldl Demands.after demands call.keyId kind).HasRoom call kind := by
  induction calls generalizing demands with
  | nil => simp [Fit]
  | cons call calls ih =>
      rw [Fit, ih]
      constructor
      · rintro ⟨first, later⟩ (_ | ⟨_, before⟩) other after split
        · cases split
          exact first
        · cases split
          exact later before other after rfl
      · intro all
        exact ⟨all [] call calls rfl, fun before other after split =>
          all (call :: before) other after (congrArg (call :: ·) split)⟩

/-- A run in memory allows everything if everything fits. -/
theorem outputs_memory_eq_iff {demands : Demands} {quota : InMemoryQuota}
    (counted : demands.Counted quota) (calls : List RemoteCall) :
    Mealy.outputs InMemoryQuota.step quota calls = List.replicate calls.length true ↔
      demands.Fit calls := by
  induction calls generalizing demands quota with
  | nil => simp [Demands.Fit]
  | cons call calls ih =>
      obtain ⟨allowed, answered, room, next⟩ := counted.step call
      rw [Mealy.outputs_cons, answered, List.length_cons, List.replicate_succ,
        List.singleton_append, List.cons.injEq, Demands.Fit, room]
      exact and_congr_right fun fits => ih (next (room.mpr fits))

theorem outputs_redis_of_outage {calls : List RemoteCall}
    (outage : ∀ call ∈ calls, call.Outage) :
    Mealy.outputs RedisQuota.step .redis calls = List.replicate calls.length true := by
  induction calls with
  | nil => rfl
  | cons call calls ih =>
      obtain ⟨first, later⟩ := List.forall_mem_cons.mp outage
      have allowed := redisCheckAndConsume_of_outage first
      rw [Mealy.outputs_cons, List.length_cons, List.replicate_succ, ← List.singleton_append,
        ← ih later, ← allowed]
      rfl

theorem outputs_memory (quota : InMemoryQuota) (calls : List RemoteCall) :
    Mealy.outputs RedisQuota.step (.memory quota) calls =
      Mealy.outputs InMemoryQuota.step quota calls := by
  induction calls generalizing quota with
  | nil => rfl
  | cons call calls ih => rw [Mealy.outputs_cons, Mealy.outputs_cons, ← ih]; rfl

/-- While Redis is away its quota decides like a fresh one in memory if it is one, or if no
call of the run asks a bucket for more than its limit leaves. -/
theorem decisions_eq_iff (redisFeature : Bool) (opens : String → Bool) (url : Option String)
    {calls : List RemoteCall} (outage : ∀ call ∈ calls, call.Outage) :
    Mealy.outputs RedisQuota.step (.new redisFeature opens url) calls =
        Mealy.outputs InMemoryQuota.step [] calls ↔
      (redisFeature && url.any opens) = false ∨
        ∀ before call after, calls = before ++ call :: after →
          ∀ kind, (Demands.of before call.keyId kind).HasRoom call kind := by
  unfold RedisQuota.new
  cases built : redisFeature && url.any opens with
  | false => simp [outputs_memory]
  | true =>
      have fresh : Demands.Counted (fun _ _ => {}) [] := fun _ _ => rfl
      rw [if_pos rfl, outputs_redis_of_outage outage, eq_comm, outputs_memory_eq_iff fresh,
        Demands.fit_iff]
      simp [Demands.of]

/-- A request of a key that may make one in a minute, while there is no connection. -/
def lonelyRequest : RemoteCall where
  keyId := "k"
  tokens := 1
  clock _ := 1000000
  spec := { requestsPerMinute := some 1 }
  connected := false
  reply _ := none

theorem decisions_eq_once :
    Mealy.outputs RedisQuota.step (.new true (fun _ => true) (some "redis://quota"))
        [lonelyRequest] =
      Mealy.outputs InMemoryQuota.step [] [lonelyRequest] := by
  have outage : ∀ call ∈ [lonelyRequest], call.Outage := by
    simp [RemoteCall.Outage, lonelyRequest]
  refine (decisions_eq_iff true (fun _ => true) (some "redis://quota") outage).mpr (.inr ?_)
  rintro before call after split kind limit limited
  obtain ⟨rfl, rfl, rfl⟩ : before = [] ∧ call = lonelyRequest ∧ after = [] := by
    cases before <;> simp_all
  cases kind <;> cases limited
  decide +kernel

/-- The second request within a minute goes through while Redis is away. -/
theorem not_decisions_eq_twice :
    (∀ call ∈ [lonelyRequest, lonelyRequest], call.Outage) ∧
      Mealy.outputs RedisQuota.step (.new true (fun _ => true) (some "redis://quota"))
          [lonelyRequest, lonelyRequest] ≠
        Mealy.outputs InMemoryQuota.step [] [lonelyRequest, lonelyRequest] := by
  refine ⟨by simp [RemoteCall.Outage, lonelyRequest], ?_⟩
  decide +kernel

end TiyGate.Core

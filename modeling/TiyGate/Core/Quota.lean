import TiyGate.Core.Accounting
import TiyGate.Data.Assoc
import TiyGate.Data.Mealy

/-!
# Quotas in memory

Requests and tokens are counted per API key in windows of a minute and of a
day.  A call checks every bucket first and then charges all of them; each
access reads the clock anew and may start a new window.
-/

namespace TiyGate.Core

/-- The buckets. -/
inductive QuotaKind
  | requestsPerMinute
  | requestsPerDay
  | tokensPerMinute
  | tokensPerDay
  deriving DecidableEq

namespace QuotaKind

/-- The length of the window, in milliseconds. -/
def window : QuotaKind → UInt64
  | requestsPerMinute => 60000
  | requestsPerDay => 86400000
  | tokensPerMinute => 60000
  | tokensPerDay => 86400000

/-- What a call with some tokens is charged. -/
def increment (tokens : UInt64) : QuotaKind → UInt64
  | requestsPerMinute => 1
  | requestsPerDay => 1
  | tokensPerMinute => tokens
  | tokensPerDay => tokens

end QuotaKind

/-- The limits of a key.  An absent one is no limit. -/
structure QuotaSpec where
  requestsPerMinute : Option UInt64 := none
  requestsPerDay : Option UInt64 := none
  tokensPerMinute : Option UInt64 := none
  tokensPerDay : Option UInt64 := none
  deriving DecidableEq

namespace QuotaSpec

def limit (spec : QuotaSpec) : QuotaKind → Option UInt64
  | .requestsPerMinute => spec.requestsPerMinute
  | .requestsPerDay => spec.requestsPerDay
  | .tokensPerMinute => spec.tokensPerMinute
  | .tokensPerDay => spec.tokensPerDay

/-- The buckets that are charged: both windows of a unit, if one of them has a
limit. -/
def toConsume (spec : QuotaSpec) : List QuotaKind :=
  (if spec.requestsPerMinute.isSome || spec.requestsPerDay.isSome then
    [.requestsPerMinute, .requestsPerDay] else []) ++
  if spec.tokensPerMinute.isSome || spec.tokensPerDay.isSome then
    [.tokensPerMinute, .tokensPerDay] else []

end QuotaSpec

inductive QuotaDecision
  | allow (remaining : Option UInt64)
  | deny (retryAfter limit : UInt64) (kind : QuotaKind)
  deriving DecidableEq

def QuotaDecision.isAllowed : QuotaDecision → Bool
  | allow _ => true
  | deny .. => false

/-! ## Counters -/

/-- Addition that stops at the largest word. -/
def saturatingAdd (a b : UInt64) : UInt64 :=
  if a ≤ a + b then a + b else 18446744073709551615

/-- Subtraction that stops at zero. -/
def saturatingSub (a b : UInt64) : UInt64 :=
  if b ≤ a then a - b else 0

/-- One rolling window. -/
structure WindowCounter where
  windowStartMs : UInt64 := 0
  used : UInt64 := 0
  deriving DecidableEq

namespace WindowCounter

/-- The counter at a time, in a new window if the old one has expired. -/
def roll (counter : WindowCounter) (window now : UInt64) : WindowCounter :=
  if window ≤ saturatingSub now counter.windowStartMs then ⟨now, 0⟩ else counter

/-- Roll the window, and say what is used and how long the window lasts. -/
def snapshot (counter : WindowCounter) (window now : UInt64) :
    WindowCounter × (UInt64 × UInt64) :=
  let rolled := counter.roll window now
  (rolled, rolled.used, saturatingSub window (saturatingSub now rolled.windowStartMs))

/-- Count some units as used. -/
def charge (counter : WindowCounter) (units : UInt64) : WindowCounter :=
  { counter with used := saturatingAdd counter.used units }

end WindowCounter

/-- The counters of a key.  A bucket without one is created when it is used. -/
abbrev Counters := List (QuotaKind × WindowCounter)

def Counters.of (counters : Counters) (kind : QuotaKind) : WindowCounter :=
  (Assoc.lookup kind counters).getD {}

def Counters.put (counters : Counters) (kind : QuotaKind) (counter : WindowCounter) : Counters :=
  Assoc.insert kind counter counters

/-- The readings of the clock during a call, in their order. -/
abbrev Clock := Nat → UInt64

/-- The counters of all keys. -/
abbrev InMemoryQuota := List (String × Counters)

def InMemoryQuota.countersOf (quota : InMemoryQuota) (keyId : String) : Counters :=
  (Assoc.lookup keyId quota).getD []

/-- The counter of a bucket of a key. -/
def InMemoryQuota.counter (quota : InMemoryQuota) (keyId : String) (kind : QuotaKind) :
    WindowCounter :=
  (quota.countersOf keyId).of kind

/-! ## Charging a call -/

section Charging

variable (spec : QuotaSpec) (tokens : UInt64) (clock : Clock)

/-- Verify that each bucket has room, from the given reading on. -/
def checkRoom (counters : Counters) : Nat → List QuotaKind → Counters × Option QuotaDecision
  | _, [] => (counters, none)
  | reading, kind :: kinds =>
      let (counter, used, _) := (counters.of kind).snapshot kind.window (clock reading)
      match spec.limit kind with
      | none => checkRoom (counters.put kind counter) (reading + 1) kinds
      | some limit =>
          if limit < used + kind.increment tokens then
            let (counter, _, retryAfter) := counter.snapshot kind.window (clock (reading + 1))
            (counters.put kind counter, some (.deny retryAfter limit kind))
          else checkRoom (counters.put kind counter) (reading + 1) kinds

/-- Charge each bucket, from the given reading on. -/
def commit (counters : Counters) : Nat → List QuotaKind → Counters
  | _, [] => counters
  | reading, kind :: kinds =>
      let (counter, _) := (counters.of kind).snapshot kind.window (clock reading)
      commit (counters.put kind (counter.charge (kind.increment tokens))) (reading + 1) kinds

/-- The two phases of a call. -/
def consume (counters : Counters) : Counters × QuotaDecision :=
  match checkRoom spec tokens clock counters 0 spec.toConsume with
  | (checked, some denied) => (checked, denied)
  | (checked, none) =>
      (commit tokens clock checked spec.toConsume.length spec.toConsume, .allow none)

def checkAndConsume (quota : InMemoryQuota) (keyId : String) : InMemoryQuota × QuotaDecision :=
  let (counters, decision) := consume spec tokens clock (quota.countersOf keyId)
  (Assoc.insert keyId counters quota, decision)

end Charging

/-! ## What a call does to a bucket -/

/-- The counter is the same, or its window had expired and a new one began. -/
def Rolls (clock : Clock) (window : UInt64) (before after : WindowCounter) : Prop :=
  after = before ∨ after.used = 0 ∧ before.windowStartMs < after.windowStartMs ∧
    ∃ reading, window ≤ saturatingSub (clock reading) before.windowStartMs

namespace Rolls

variable {clock : Clock} {window : UInt64} {before middle after : WindowCounter}

theorem refl (clock : Clock) (window : UInt64) (counter : WindowCounter) :
    Rolls clock window counter counter :=
  .inl rfl

theorem trans (first : Rolls clock window before middle) (second : Rolls clock window middle after) :
    Rolls clock window before after := by
  rcases first with rfl | ⟨empty, later, expired⟩
  · exact second
  · rcases second with rfl | ⟨empty', later', -⟩
    · exact .inr ⟨empty, later, expired⟩
    · exact .inr ⟨empty', UInt64.lt_trans later later', expired⟩

theorem roll (clock : Clock) (positive : 0 < window) (counter : WindowCounter) (reading : Nat) :
    Rolls clock window counter (counter.roll window (clock reading)) := by
  unfold WindowCounter.roll
  split
  · rename_i expired
    refine .inr ⟨rfl, ?_, reading, expired⟩
    by_contra early
    have same : saturatingSub (clock reading) counter.windowStartMs = 0 := by
      unfold saturatingSub
      split
      · rename_i le
        have eq := UInt64.le_antisymm le (UInt64.not_lt.mp early)
        rw [← eq, UInt64.sub_self]
      · rfl
    rw [same] at expired
    exact absurd (UInt64.lt_of_lt_of_le positive expired) (UInt64.lt_irrefl 0)
  · exact .inl rfl

theorem used_le (rolls : Rolls clock window before after) : after.used ≤ before.used := by
  rcases rolls with rfl | ⟨empty, -⟩
  · exact UInt64.le_refl _
  · rw [empty]
    exact UInt64.zero_le

/-- A count of what is used goes on in the same window and begins anew in
another one. -/
theorem used_eq (rolls : Rolls clock window before after) :
    after.used.toNat =
      if after.windowStartMs = before.windowStartMs then before.used.toNat else 0 := by
  rcases rolls with rfl | ⟨empty, later, -⟩
  · rw [if_pos rfl]
  · rw [if_neg (UInt64.ne_of_lt later).symm, empty]
    rfl

end Rolls

theorem QuotaKind.window_pos (kind : QuotaKind) : 0 < kind.window := by
  cases kind <;> decide

@[simp]
theorem Counters.of_put (counters : Counters) (kind other : QuotaKind) (counter : WindowCounter) :
    (counters.put kind counter).of other =
      if other = kind then counter else counters.of other := by
  rw [Counters.of, Counters.put, Assoc.lookup_insert]
  split <;> rfl

section Charging

variable (spec : QuotaSpec) (tokens : UInt64) (clock : Clock)

/-- A bucket with so much used has no room. -/
def Exceeds (kind : QuotaKind) (used : UInt64) : Prop :=
  ∃ limit, spec.limit kind = some limit ∧ limit < used + kind.increment tokens

theorem checkRoom_cons (counters : Counters) (reading : Nat) (kind : QuotaKind)
    (kinds : List QuotaKind) :
    let rolled := (counters.of kind).roll kind.window (clock reading)
    (∃ denied : QuotaDecision, denied.isAllowed = false ∧
      checkRoom spec tokens clock counters reading (kind :: kinds) =
        (counters.put kind (rolled.roll kind.window (clock (reading + 1))), some denied)) ∨
      ¬ Exceeds spec tokens kind rolled.used ∧
        checkRoom spec tokens clock counters reading (kind :: kinds) =
          checkRoom spec tokens clock (counters.put kind rolled) (reading + 1) kinds := by
  intro rolled
  cases limited : spec.limit kind with
  | none =>
      refine .inr ⟨?_, by simp only [checkRoom, WindowCounter.snapshot, limited]; rfl⟩
      rintro ⟨limit, found, -⟩
      rw [limited] at found
      cases found
  | some limit =>
      by_cases full : limit < rolled.used + kind.increment tokens
      · refine .inl ⟨.deny (saturatingSub kind.window (saturatingSub (clock (reading + 1))
          (rolled.roll kind.window (clock (reading + 1))).windowStartMs)) limit kind, rfl, ?_⟩
        simp only [checkRoom, WindowCounter.snapshot, limited]
        exact if_pos full
      · refine .inr ⟨?_, ?_⟩
        · rintro ⟨other, found, exceeds⟩
          rw [limited] at found
          cases found
          exact full exceeds
        · simp only [checkRoom, WindowCounter.snapshot, limited]
          exact if_neg full

/-- The first phase rolls windows and does nothing else; buckets that are not
checked stay as they are. -/
theorem rolls_checkRoom (counters : Counters) (reading : Nat) (kinds : List QuotaKind)
    (kind : QuotaKind) :
    Rolls clock kind.window (counters.of kind)
        ((checkRoom spec tokens clock counters reading kinds).1.of kind) ∧
      (kind ∉ kinds →
        (checkRoom spec tokens clock counters reading kinds).1.of kind = counters.of kind) := by
  induction kinds generalizing counters reading with
  | nil => exact ⟨.refl .., fun _ => rfl⟩
  | cons first kinds ih =>
      have rolled : ∀ counter, Rolls clock first.window (counters.of first) counter →
          Rolls clock kind.window (counters.of kind) ((counters.put first counter).of kind) ∧
            (kind ∉ first :: kinds →
              (counters.put first counter).of kind = counters.of kind) := by
        intro counter rolls
        rw [Counters.of_put]
        by_cases same : kind = first
        · subst same
          rw [if_pos rfl]
          exact ⟨rolls, fun absent => absurd List.mem_cons_self absent⟩
        · rw [if_neg same]
          exact ⟨.refl .., fun _ => rfl⟩
      have once := Rolls.roll clock first.window_pos (counters.of first) reading
      have next := ih (counters.put first ((counters.of first).roll first.window (clock reading)))
        (reading + 1)
      obtain ⟨here, kept⟩ := rolled _ once
      have continued := And.intro (here.trans next.1) fun absent =>
        (next.2 fun mem => absent (List.mem_cons_of_mem first mem)).trans (kept absent)
      rcases checkRoom_cons spec tokens clock counters reading first kinds with
        ⟨denied, -, checked⟩ | ⟨-, checked⟩
      · rw [checked]
        exact rolled _ (once.trans (Rolls.roll clock first.window_pos _ (reading + 1)))
      · rw [checked]
        exact continued

theorem isAllowed_of_checkRoom (counters : Counters) (reading : Nat) (kinds : List QuotaKind) :
    ∀ decision ∈ (checkRoom spec tokens clock counters reading kinds).2,
      decision.isAllowed = false := by
  induction kinds generalizing counters reading with
  | nil => simp [checkRoom]
  | cons first kinds ih =>
      rcases checkRoom_cons spec tokens clock counters reading first kinds with
        ⟨denied, refused, checked⟩ | ⟨-, checked⟩
      · rw [checked]
        intro decision found
        cases found
        exact refused
      · rw [checked]
        exact ih _ _

/-- A bucket that was found to have room had it when it was looked at. -/
theorem room_of_checkRoom {counters : Counters} {reading : Nat} {kinds : List QuotaKind}
    (nodup : kinds.Nodup)
    (passed : (checkRoom spec tokens clock counters reading kinds).2 = none)
    {kind : QuotaKind} {place : Nat} (mem : (kind, place) ∈ kinds.zipIdx reading) :
    (checkRoom spec tokens clock counters reading kinds).1.of kind =
        (counters.of kind).roll kind.window (clock place) ∧
      ¬ Exceeds spec tokens kind ((counters.of kind).roll kind.window (clock place)).used := by
  induction kinds generalizing counters reading with
  | nil => cases mem
  | cons first kinds ih =>
      rw [List.nodup_cons] at nodup
      rcases checkRoom_cons spec tokens clock counters reading first kinds with
        ⟨denied, -, checked⟩ | ⟨room, checked⟩
      · rw [checked] at passed
        cases passed
      · rw [checked] at passed ⊢
        rw [List.zipIdx_cons, List.mem_cons] at mem
        rcases mem with here | later
        · cases here
          rw [(rolls_checkRoom spec tokens clock _ _ kinds kind).2 nodup.1, Counters.of_put, if_pos rfl]
          exact ⟨rfl, room⟩
        · have other : kind ≠ first := by
            rintro rfl
            exact nodup.1 (List.fst_mem_of_mem_zipIdx later)
          have found := ih nodup.2 passed later
          rw [Counters.of_put, if_neg other] at found
          exact found

/-- The second phase charges each of its buckets once, in the window of that
moment. -/
theorem of_commit (counters : Counters) (reading : Nat) {kinds : List QuotaKind}
    (nodup : kinds.Nodup) (kind : QuotaKind) :
    (kind ∉ kinds ∧ (commit tokens clock counters reading kinds).of kind = counters.of kind) ∨
      kind ∈ kinds ∧ ∃ counter, Rolls clock kind.window (counters.of kind) counter ∧
        (commit tokens clock counters reading kinds).of kind =
          counter.charge (kind.increment tokens) := by
  induction kinds generalizing counters reading with
  | nil => exact .inl ⟨List.not_mem_nil, rfl⟩
  | cons first kinds ih =>
      rw [List.nodup_cons] at nodup
      have later := ih (counters.put first (((counters.of first).roll first.window
        (clock reading)).charge (first.increment tokens))) (reading + 1) nodup.2
      rw [Counters.of_put] at later
      by_cases same : kind = first
      · subst same
        rw [if_pos rfl] at later
        have last := later.resolve_right fun charged => nodup.1 charged.1
        exact .inr ⟨List.mem_cons_self, _, Rolls.roll clock kind.window_pos _ reading, last.2⟩
      · rw [if_neg same] at later
        rcases later with ⟨absent, kept⟩ | ⟨mem, charged⟩
        · exact .inl ⟨List.not_mem_cons_of_ne_of_not_mem same absent, kept⟩
        · exact .inr ⟨List.mem_cons_of_mem first mem, charged⟩

theorem QuotaSpec.nodup_toConsume (spec : QuotaSpec) : spec.toConsume.Nodup := by
  unfold QuotaSpec.toConsume
  split <;> split <;> decide

/-- A bucket with a limit is charged. -/
theorem QuotaSpec.mem_toConsume {spec : QuotaSpec} {kind : QuotaKind} {limit : UInt64}
    (limited : spec.limit kind = some limit) : kind ∈ spec.toConsume := by
  cases kind <;> simp only [QuotaSpec.limit] at limited <;> simp [QuotaSpec.toConsume, limited]

/-- A denied call rolls windows.  An allowed one charges the buckets that had
room when they were looked at. -/
theorem consume_cases (counters : Counters) :
    ((consume spec tokens clock counters).2.isAllowed = false ∧
      ∀ kind, Rolls clock kind.window (counters.of kind)
        ((consume spec tokens clock counters).1.of kind)) ∨
    (consume spec tokens clock counters).2.isAllowed = true ∧
      (∀ kind, kind ∉ spec.toConsume →
        (consume spec tokens clock counters).1.of kind = counters.of kind) ∧
      ∀ kind place, (kind, place) ∈ spec.toConsume.zipIdx →
        ¬ Exceeds spec tokens kind ((counters.of kind).roll kind.window (clock place)).used ∧
        ∃ counter, Rolls clock kind.window
            ((counters.of kind).roll kind.window (clock place)) counter ∧
          (consume spec tokens clock counters).1.of kind =
            counter.charge (kind.increment tokens) := by
  have rolls := rolls_checkRoom spec tokens clock counters 0 spec.toConsume
  have room := @room_of_checkRoom spec tokens clock counters 0 _ spec.nodup_toConsume
  have denies := isAllowed_of_checkRoom spec tokens clock counters 0 spec.toConsume
  unfold consume
  generalize checkRoom spec tokens clock counters 0 spec.toConsume = checked at rolls room denies
  obtain ⟨checked, decision⟩ := checked
  cases decision with
  | some denied => exact .inl ⟨denies denied rfl, fun kind => (rolls kind).1⟩
  | none =>
      refine .inr ⟨rfl, ?_, ?_⟩
      · intro kind absent
        have kept := (of_commit tokens clock checked
          spec.toConsume.length spec.nodup_toConsume kind).resolve_right fun charged => absent charged.1
        exact kept.2.trans ((rolls kind).2 absent)
      · intro kind place mem
        obtain ⟨rolled, fits⟩ := room rfl mem
        have charged := (of_commit tokens clock checked
          spec.toConsume.length spec.nodup_toConsume kind).resolve_left
          fun kept => kept.1 (List.fst_mem_of_mem_zipIdx mem)
        rw [show checked.of kind = _ from rolled] at charged
        exact ⟨fits, charged.2⟩

end Charging

/-! ## Runs -/

/-- A call for a key. -/
structure QuotaCall where
  keyId : String
  tokens : UInt64
  clock : Clock

/-- The counters, and beside them the units that were allowed in the current
window of each bucket, which the program does not keep. -/
structure Observed where
  quota : InMemoryQuota := []
  allowed : String → QuotaKind → Nat := fun _ _ => 0

section Runs

variable (specs : String → QuotaSpec)

/-- The units a call is allowed in a bucket. -/
def unitsAllowed (spec : QuotaSpec) (tokens : UInt64) (decision : QuotaDecision)
    (kind : QuotaKind) : Nat :=
  if decision.isAllowed ∧ kind ∈ spec.toConsume then (kind.increment tokens).toNat else 0

/-- The outcome of a call. -/
def Observed.outcome (observed : Observed) (call : QuotaCall) : InMemoryQuota × QuotaDecision :=
  checkAndConsume (specs call.keyId) call.tokens call.clock observed.quota call.keyId

/-- A call, observed.  The units allowed before count as long as the window
starts at the same time. -/
def Observed.step (observed : Observed) (call : QuotaCall) : Observed where
  quota := (observed.outcome specs call).1
  allowed keyId kind :=
    if keyId = call.keyId then
      (if ((observed.outcome specs call).1.counter keyId kind).windowStartMs =
          (observed.quota.counter keyId kind).windowStartMs then observed.allowed keyId kind
        else 0) +
        unitsAllowed (specs keyId) call.tokens (observed.outcome specs call).2 kind
    else observed.allowed keyId kind

/-- No check of the call adds up to more than a word holds. -/
def Observed.Fits (observed : Observed) (call : QuotaCall) : Prop :=
  ∀ kind place limit, (kind, place) ∈ (specs call.keyId).toConsume.zipIdx →
    (specs call.keyId).limit kind = some limit →
      (((observed.quota.counter call.keyId kind).roll kind.window
        (call.clock place)).used.toNat + (kind.increment call.tokens).toNat < 2 ^ 64)

/-- Every call of a run fits. -/
def Observed.AllFit : Observed → List QuotaCall → Prop
  | _, [] => True
  | observed, call :: calls =>
      observed.Fits specs call ∧ AllFit (observed.step specs call) calls

/-- Every bucket with a limit has used what was allowed, and not more than the
limit. -/
def Observed.Within (observed : Observed) : Prop :=
  ∀ keyId kind limit, (specs keyId).limit kind = some limit →
    (observed.quota.counter keyId kind).used.toNat = observed.allowed keyId kind ∧
      (observed.quota.counter keyId kind).used ≤ limit

theorem counter_outcome (observed : Observed) (call : QuotaCall) (keyId : String)
    (kind : QuotaKind) :
    (observed.outcome specs call).1.counter keyId kind =
      if keyId = call.keyId then
        (consume (specs call.keyId) call.tokens call.clock
          (observed.quota.countersOf call.keyId)).1.of kind
      else observed.quota.counter keyId kind := by
  simp only [Observed.outcome, checkAndConsume, InMemoryQuota.counter, InMemoryQuota.countersOf,
    Assoc.lookup_insert]
  split <;> rfl

variable {specs}

/-- A denied call changes what is used only where a window had expired. -/
theorem rolls_of_denied (observed : Observed) (call : QuotaCall)
    (denied : (observed.outcome specs call).2.isAllowed = false) (keyId : String)
    (kind : QuotaKind) :
    Rolls call.clock kind.window (observed.quota.counter keyId kind)
      ((observed.outcome specs call).1.counter keyId kind) := by
  rw [counter_outcome]
  split
  · rename_i same
    rw [same]
    rcases consume_cases (specs call.keyId) call.tokens call.clock
      (observed.quota.countersOf call.keyId) with ⟨-, rolls⟩ | ⟨allowed, -⟩
    · exact rolls kind
    · exact nomatch allowed.symm.trans denied
  · exact .refl ..

theorem toNat_saturatingAdd {a b : UInt64} (fits : a.toNat + b.toNat < 2 ^ 64) :
    (saturatingAdd a b).toNat = a.toNat + b.toNat := by
  have sum := toNat_add_of_lt fits
  have le : a ≤ a + b := by
    rw [UInt64.le_iff_toNat_le, sum]
    exact Nat.le_add_right _ _
  rw [saturatingAdd, if_pos le, sum]

/-- A bucket that had room and is charged has used what was allowed, within its
limit. -/
theorem charge_within {clock : Clock} {window : UInt64} {rolled counter : WindowCounter}
    {units limit : UInt64} (rolls : Rolls clock window rolled counter)
    (room : rolled.used + units ≤ limit) (fits : rolled.used.toNat + units.toNat < 2 ^ 64) :
    (counter.charge units).used.toNat = counter.used.toNat + units.toNat ∧
      (counter.charge units).used ≤ limit := by
  have le := UInt64.le_iff_toNat_le.mp rolls.used_le
  have charged := toNat_saturatingAdd (show counter.used.toNat + units.toNat < 2 ^ 64 by omega)
  refine ⟨charged, ?_⟩
  rw [UInt64.le_iff_toNat_le, toNat_add_of_lt fits] at room
  rw [UInt64.le_iff_toNat_le, WindowCounter.charge, charged]
  omega

theorem Observed.Within.step {observed : Observed} (within : observed.Within specs)
    {call : QuotaCall} (fits : observed.Fits specs call) :
    (observed.step specs call).Within specs := by
  intro keyId kind limit limited
  obtain ⟨used, bound⟩ := within keyId kind limit limited
  simp only [Observed.step]
  by_cases same : keyId = call.keyId
  · subst same
    have after := (counter_outcome specs observed call call.keyId kind).trans (if_pos rfl)
    rw [if_pos rfl, ← used]
    rcases consume_cases (specs call.keyId) call.tokens call.clock
      (observed.quota.countersOf call.keyId) with ⟨denied, rolls⟩ | ⟨allowed, -, charges⟩
    · have rolled := rolls kind
      rw [← after] at rolled
      have nothing : unitsAllowed (specs call.keyId) call.tokens
          (observed.outcome specs call).2 kind = 0 :=
        if_neg fun yes => nomatch yes.1.symm.trans denied
      rw [nothing, Nat.add_zero]
      exact ⟨rolled.used_eq, UInt64.le_trans rolled.used_le bound⟩
    · have charged := QuotaSpec.mem_toConsume limited
      obtain ⟨place, found⟩ := List.getElem?_of_mem charged
      have mem := List.mk_mem_zipIdx_iff_getElem?.mpr found
      obtain ⟨room, counter, rolls, written⟩ := charges kind place mem
      have units : unitsAllowed (specs call.keyId) call.tokens (observed.outcome specs call).2 kind =
          (kind.increment call.tokens).toNat := if_pos ⟨allowed, charged⟩
      have enough := UInt64.not_lt.mp fun exceeds => room ⟨limit, limited, exceeds⟩
      obtain ⟨sum, within⟩ := charge_within rolls enough (fits kind place limit mem limited)
      have rolled := (Rolls.roll call.clock kind.window_pos _ place).trans rolls
      rw [after, written, units, sum, rolled.used_eq]
      exact ⟨rfl, within⟩
  · rw [if_neg same, counter_outcome, if_neg same]
    exact ⟨used, bound⟩

theorem Observed.Within.run {observed : Observed} (within : observed.Within specs)
    {calls : List QuotaCall} (fits : observed.AllFit specs calls) :
    (calls.foldl (Observed.step specs) observed).Within specs := by
  induction calls generalizing observed with
  | nil => exact within
  | cons call calls ih => exact ih (within.step fits.1) fits.2

variable (specs)

/-- After every run of calls that fit, no bucket has used or allowed more than
its limit in its window; and a call that is denied then changes what is used
only by resetting a bucket whose window has expired. -/
theorem used_le_limit {calls : List QuotaCall} (fits : Observed.AllFit specs {} calls) :
    let observed := calls.foldl (Observed.step specs) {}
    (∀ keyId kind limit, (specs keyId).limit kind = some limit →
      (observed.quota.counter keyId kind).used ≤ limit ∧
        observed.allowed keyId kind ≤ limit.toNat) ∧
    ∀ call : QuotaCall, (observed.outcome specs call).2.isAllowed = false →
      ∀ keyId kind,
        ((observed.outcome specs call).1.counter keyId kind).used =
            (observed.quota.counter keyId kind).used ∨
          ((observed.outcome specs call).1.counter keyId kind).used = 0 ∧
            ∃ reading, kind.window ≤ saturatingSub (call.clock reading)
              (observed.quota.counter keyId kind).windowStartMs := by
  intro observed
  have initially : ({} : Observed).Within specs := fun _ _ _ _ => ⟨rfl, UInt64.zero_le⟩
  constructor
  · intro keyId kind limit limited
    obtain ⟨used, bound⟩ := initially.run fits keyId kind limit limited
    rw [← used]
    exact ⟨bound, UInt64.le_iff_toNat_le.mp bound⟩
  · intro call denied keyId kind
    rcases rolls_of_denied observed call denied keyId kind with same | ⟨empty, -, expired⟩
    · exact .inl (congrArg WindowCounter.used same)
    · exact .inr ⟨empty, expired⟩

end Runs

/-- Ten tokens a minute for everybody. -/
def tenTokens : String → QuotaSpec :=
  fun _ => { tokensPerMinute := some 10 }

/-- Seven tokens are within the limit, and five more are denied. -/
theorem used_le_limit_seven :
    let calls : List QuotaCall := [⟨"k", 7, fun _ => 0⟩, ⟨"k", 5, fun _ => 1⟩]
    let observed := calls.foldl (Observed.step tenTokens) {}
    (observed.quota.counter "k" .tokensPerMinute).used = 7 ∧
      ∀ limit, (tenTokens "k").limit .tokensPerMinute = some limit →
        (observed.quota.counter "k" .tokensPerMinute).used ≤ limit := by
  intro calls observed
  have fits : Observed.AllFit tenTokens {} calls := by
    refine ⟨?_, ?_, trivial⟩
    all_goals
      intro kind place limit mem limited
      simp only [tenTokens, QuotaSpec.toConsume, List.zipIdx_cons, List.mem_cons,
        Option.isSome_none, Option.isSome_some, Bool.or_false, Bool.false_eq_true, if_false, if_true,
        List.nil_append, List.zipIdx_nil, List.not_mem_nil, or_false, Prod.mk.injEq] at mem
      rcases mem with ⟨rfl, rfl⟩ | ⟨rfl, rfl⟩
      all_goals decide +kernel
  refine ⟨by decide +kernel, fun limit limited => ?_⟩
  exact ((used_le_limit tenTokens fits).1 "k" .tokensPerMinute limit limited).1

/-- The sum in a check wraps around, and the bucket is overrun. -/
theorem not_used_le_limit_wrapped :
    ¬ ∀ (specs : String → QuotaSpec) (calls : List QuotaCall) (keyId : String) (kind : QuotaKind)
        (limit : UInt64), (specs keyId).limit kind = some limit →
      ((calls.foldl (Observed.step specs) {}).quota.counter keyId kind).used ≤ limit := by
  intro bounded
  have within := bounded tenTokens
    [⟨"k", 1, fun _ => 0⟩, ⟨"k", 18446744073709551615, fun _ => 0⟩] "k" .tokensPerMinute 10 rfl
  revert within
  decide +kernel

end TiyGate.Core

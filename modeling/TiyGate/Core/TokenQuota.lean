import TiyGate.Core.Quota
import TiyGate.Data.Runs

/-!
# Token quotas

A request is charged before the upstream is called, and always with one token:
the buckets of tokens count requests, like those of requests.  What the upstream
uses is known when the request completes, and is charged to nobody.
-/

namespace TiyGate.Core

open Runs (run Along)

namespace QuotaKind

/-- The bucket is one of tokens. -/
def ofTokens : QuotaKind → Bool
  | tokensPerMinute | tokensPerDay => true
  | requestsPerMinute | requestsPerDay => false

end QuotaKind

/-- A request of the key, with the readings of the clock during its check, or
the completion of one that was allowed. -/
inductive MeterEvent
  | request (clock : Clock)
  | complete (now : UInt64) (usage : Usage)

/-- The counters, the requests in flight, and for each bucket the tokens of the
requests that were completed in its current window, which the program does not
keep. -/
structure Metered where
  quota : InMemoryQuota := []
  inFlight : Nat := 0
  completed : QuotaKind → Nat := fun _ => 0

namespace Metered

variable (keyId : String) (spec : QuotaSpec) (metered : Metered)

/-- `check_quota`, as every handler calls it. -/
def checkQuota (clock : Clock) : InMemoryQuota × QuotaDecision :=
  checkAndConsume spec 1 clock metered.quota keyId

/-- The window of the bucket is over at this time. -/
def expired (kind : QuotaKind) (now : UInt64) : Prop :=
  kind.window ≤ saturatingSub now (metered.quota.counter keyId kind).windowStartMs

instance (kind : QuotaKind) (now : UInt64) : Decidable (metered.expired keyId kind now) :=
  inferInstanceAs (Decidable (_ ≤ _))

/-- One event, where it can happen. -/
def step : MeterEvent → Option Metered
  | .request clock =>
      let (quota, decision) := metered.checkQuota keyId spec clock
      some
        { quota := quota
          inFlight := if decision.isAllowed then metered.inFlight + 1 else metered.inFlight
          completed := fun kind =>
            if (quota.counter keyId kind).windowStartMs =
                (metered.quota.counter keyId kind).windowStartMs then metered.completed kind
            else 0 }
  | .complete now usage =>
      match metered.inFlight with
      | 0 => none
      | inFlight + 1 =>
          some
            { quota := metered.quota
              inFlight := inFlight
              completed := fun kind =>
                if metered.expired keyId kind now then metered.completed kind
                else metered.completed kind + (usage.promptTokens.toNat + usage.completionTokens.toNat) }

/-- The tokens of a bucket are spent: its window goes on when it is checked, and
the requests completed in it have used its limit. -/
structure Spent (clock : Clock) (kind : QuotaKind) (place : Nat) (limit : UInt64) : Prop where
  checked : (kind, place) ∈ spec.toConsume.zipIdx
  ofTokens : kind.ofTokens
  limited : spec.limit kind = some limit
  current : ¬ metered.expired keyId kind (clock place)
  used : limit.toNat ≤ metered.completed kind

/-- A bucket has been charged with as many units as its limit, but not with as
many as a word holds. -/
structure Charged (clock : Clock) (kind : QuotaKind) (place : Nat) (limit : UInt64) : Prop where
  checked : (kind, place) ∈ spec.toConsume.zipIdx
  limited : spec.limit kind = some limit
  charged : limit ≤ ((metered.quota.counter keyId kind).roll kind.window (clock place)).used
  room : ((metered.quota.counter keyId kind).roll kind.window (clock place)).used.toNat + 1 < 2 ^ 64

/-- A request is denied when the tokens of a bucket are spent. -/
def DeniesSpent : MeterEvent → Prop
  | .request clock => ∀ kind place limit, metered.Spent keyId spec clock kind place limit →
      (metered.checkQuota keyId spec clock).2.isAllowed = false
  | .complete _ _ => True

/-- When the tokens of a bucket are spent, some bucket has been charged with its
limit: so many requests have been allowed in its window. -/
def AsManyRequests : MeterEvent → Prop
  | .request clock => ∀ kind place limit, metered.Spent keyId spec clock kind place limit →
      ∃ kind place limit, metered.Charged keyId spec clock kind place limit
  | .complete _ _ => True

end Metered

section

variable (spec : QuotaSpec) (tokens : UInt64) (clock : Clock)

/-- A call is denied at a bucket that has no room. -/
theorem exists_exceeds_of_checkRoom {counters : Counters} {reading : Nat} {kinds : List QuotaKind}
    (nodup : kinds.Nodup)
    (denied : (checkRoom spec tokens clock counters reading kinds).2 ≠ none) :
    ∃ kind place, (kind, place) ∈ kinds.zipIdx reading ∧
      Exceeds spec tokens kind ((counters.of kind).roll kind.window (clock place)).used := by
  induction kinds generalizing counters reading with
  | nil => exact absurd rfl denied
  | cons first kinds ih =>
      rcases List.nodup_cons.mp nodup with ⟨absent, nodup⟩
      by_cases exceeds : Exceeds spec tokens first
          ((counters.of first).roll first.window (clock reading)).used
      · exact ⟨first, reading, by rw [List.zipIdx_cons]; exact List.mem_cons_self, exceeds⟩
      · have later : checkRoom spec tokens clock counters reading (first :: kinds) =
            checkRoom spec tokens clock
              (counters.put first ((counters.of first).roll first.window (clock reading)))
              (reading + 1) kinds := by
          rw [checkRoom]
          dsimp only [WindowCounter.snapshot]
          split
          · rfl
          · rename_i limit limited
            exact if_neg fun full => exceeds ⟨limit, limited, full⟩
        rw [later] at denied
        rcases ih nodup denied with ⟨kind, place, mem, exceeds⟩
        have different : kind ≠ first := by
          rintro rfl
          exact absent (List.fst_mem_of_mem_zipIdx mem)
        rw [Counters.of_put, if_neg different] at exceeds
        exact ⟨kind, place, by rw [List.zipIdx_cons]; exact List.mem_cons_of_mem _ mem, exceeds⟩

/-- A call is denied exactly if some bucket has no room. -/
theorem denied_iff (counters : Counters) :
    (consume spec tokens clock counters).2.isAllowed = false ↔
      ∃ kind place, (kind, place) ∈ spec.toConsume.zipIdx ∧
        Exceeds spec tokens kind ((counters.of kind).roll kind.window (clock place)).used := by
  constructor
  · intro denied
    apply exists_exceeds_of_checkRoom spec tokens clock spec.nodup_toConsume
    intro passed
    rw [consume] at denied
    split at denied
    · rename_i checked decision eq
      rw [eq] at passed
      cases passed
    · cases denied
  · rintro ⟨kind, place, mem, exceeds⟩
    rcases consume_cases spec tokens clock counters with ⟨denied, _⟩ | ⟨_, _, room⟩
    · exact denied
    · exact absurd exceeds (room kind place mem).1

end

namespace Metered

variable {keyId : String} {spec : QuotaSpec} {metered : Metered} {event : MeterEvent}

/-- With one token, a bucket has no room when it has been charged with its limit. -/
theorem exceeds_iff {kind : QuotaKind} {used : UInt64} :
    Exceeds spec 1 kind used ↔
      ∃ limit, spec.limit kind = some limit ∧ limit ≤ used ∧ used.toNat + 1 < 2 ^ 64 := by
  have one : kind.increment 1 = 1 := by cases kind <;> rfl
  rw [Exceeds, one]
  apply exists_congr
  intro limit
  apply and_congr_right
  intro _
  have bound : used.toNat < 2 ^ 64 := used.toNat_lt
  have sum : (used + 1).toNat = (used.toNat + 1) % 2 ^ 64 := UInt64.toNat_add used 1
  rw [UInt64.lt_iff_toNat_lt, UInt64.le_iff_toNat_le, sum]
  by_cases room : used.toNat + 1 < 2 ^ 64
  · rw [Nat.mod_eq_of_lt room]
    omega
  · have full : used.toNat + 1 = 2 ^ 64 := by omega
    rw [full, Nat.mod_self]
    omega

theorem denied_iff_charged (clock : Clock) :
    (metered.checkQuota keyId spec clock).2.isAllowed = false ↔
      ∃ kind place limit, metered.Charged keyId spec clock kind place limit := by
  change (consume spec 1 clock (metered.quota.countersOf keyId)).2.isAllowed = false ↔ _
  rw [denied_iff]
  constructor
  · rintro ⟨kind, place, mem, exceeds⟩
    rcases exceeds_iff.mp exceeds with ⟨limit, limited, charged, room⟩
    exact ⟨kind, place, limit, mem, limited, charged, room⟩
  · rintro ⟨kind, place, limit, mem, limited, charged, room⟩
    exact ⟨kind, place, mem, exceeds_iff.mpr ⟨limit, limited, charged, room⟩⟩

theorem deniesSpent_iff :
    metered.DeniesSpent keyId spec event ↔ metered.AsManyRequests keyId spec event := by
  cases event with
  | complete now usage => exact Iff.rfl
  | request clock =>
      rw [DeniesSpent, AsManyRequests, denied_iff_charged]

/-- In the run, a key that has spent its tokens is denied. -/
def LimitsTokens (keyId : String) (spec : QuotaSpec) (events : List MeterEvent) : Prop :=
  Along (step keyId spec) (fun metered => metered.DeniesSpent keyId spec) {} events

/-- The token quotas limit tokens in exactly the runs in which as many requests
come as the tokens that are spent. -/
theorem limitsTokens_iff (keyId : String) (spec : QuotaSpec) (events : List MeterEvent) :
    LimitsTokens keyId spec events ↔
      Along (step keyId spec) (fun metered => metered.AsManyRequests keyId spec) {} events := by
  have same : (fun metered : Metered => metered.DeniesSpent keyId spec) =
      fun metered => metered.AsManyRequests keyId spec := by
    funext metered event
    exact propext deniesSpent_iff
  rw [LimitsTokens, same]

/-- Ten tokens a minute. -/
def ten : QuotaSpec where
  tokensPerMinute := some 10

/-- A request that uses a thousand tokens. -/
def thousand : List MeterEvent :=
  [.request fun _ => 1000000, .complete 1000001 { promptTokens := 900, completionTokens := 100 }]

/-- Another one is allowed a moment later. -/
theorem not_limitsTokens_thousand :
    ¬ LimitsTokens "k" ten (thousand ++ [.request fun _ => 1000002]) := by
  intro limits
  have after : (run (step "k" ten) {} thousand).map (fun metered =>
      (metered.completed .tokensPerMinute,
        decide (metered.expired "k" .tokensPerMinute 1000002),
        (metered.checkQuota "k" ten fun _ => 1000002).2.isAllowed)) = some (1000, false, true) := by
    decide +kernel
  rcases Option.map_eq_some_iff.mp after with ⟨metered, ran, after⟩
  rcases Prod.mk.inj after with ⟨used, after⟩
  rcases Prod.mk.inj after with ⟨current, allowed⟩
  have denied := (Runs.along_append ran limits).2.1 .tokensPerMinute 0 10
    { checked := by decide
      ofTokens := rfl
      limited := rfl
      current := of_decide_eq_false current
      used := by rw [used]; decide }
  rw [allowed] at denied
  cases denied

end Metered

end TiyGate.Core

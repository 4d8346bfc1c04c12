import TiyGate.Core.Quota
import TiyGate.Data.Runs

/-!
# Quotas in Redis

One call runs a script for each bucket that has a limit, one after the other,
and the scripts of many calls of many instances interleave.  A counter is a key
of Redis that expires when its window is over.  Limits are words of 64 bits,
which the gateway hands to the script as signed numbers.
-/

namespace TiyGate.Core

open Runs (run Along Always)

/-! ## Redis -/

/-- A counter, and when Redis deletes it. -/
structure RedisCounter where
  value : Int
  expireAt : Option Int := none

namespace RedisCounter

/-- What Redis finds of what is stored under a key. -/
def found (stored : Option RedisCounter) (now : Nat) : Option RedisCounter :=
  stored.filter fun counter => counter.expireAt.all fun expireAt => (now : Int) ≤ expireAt

/-- What `GET` makes of it. -/
def read (found : Option RedisCounter) : Int :=
  found.elim 0 RedisCounter.value

end RedisCounter

/-- `INCR_SCRIPT`, on the counter it finds. -/
def incrScript (inc ttl limit : Int) (now : Nat) (found : Option RedisCounter) :
    Int × Option RedisCounter :=
  let n := RedisCounter.read found
  if n + inc > limit then (-1, found)
  else
    let new := n + inc
    let counter := { value := new, expireAt := found.bind RedisCounter.expireAt }
    (new, some (if new = inc then { counter with expireAt := some (now + ttl) } else counter))

/-! ## Calls -/

namespace QuotaKind

def label : QuotaKind → String
  | requestsPerMinute => "rpm"
  | requestsPerDay => "rpd"
  | tokensPerMinute => "tpm"
  | tokensPerDay => "tpd"

def keyFor (keyId : String) (kind : QuotaKind) : String :=
  "tiygate:quota:" ++ keyId ++ ":" ++ kind.label

end QuotaKind

/-- A bucket to check, with its increment and its limit. -/
structure QuotaCheck where
  kind : QuotaKind
  increment : UInt64
  limit : UInt64

/-- The buckets that are checked: those with a limit. -/
def QuotaSpec.checks (spec : QuotaSpec) (tokens : UInt64) : List QuotaCheck :=
  (spec.requestsPerMinute.map fun limit => ⟨.requestsPerMinute, 1, limit⟩).toList ++
  (spec.requestsPerDay.map fun limit => ⟨.requestsPerDay, 1, limit⟩).toList ++
  (spec.tokensPerMinute.map fun limit => ⟨.tokensPerMinute, tokens, limit⟩).toList ++
  (spec.tokensPerDay.map fun limit => ⟨.tokensPerDay, tokens, limit⟩).toList

/-- `as i64`. -/
def signed (word : UInt64) : Int :=
  word.toInt64.toInt

/-- How far a call of `check_and_consume` has come: the buckets it has counted
in, and those it has still to check or its answer. -/
inductive ScriptedCall
  | idle
  | checking (keyId : String) (passed : List QuotaKind) (remaining : List QuotaCheck)
  | answered (keyId : String) (passed : List QuotaKind) (decision : QuotaDecision)

/-- The call goes on, or is allowed. -/
def ScriptedCall.proceed (keyId : String) (passed : List QuotaKind) : List QuotaCheck → ScriptedCall
  | [] => .answered keyId passed (.allow none)
  | check :: remaining => .checking keyId passed (check :: remaining)

/-- A call begins, or runs the script of its next bucket. -/
inductive QuotaEvent
  | start (id : Nat) (keyId : String)
  | invoke (id : Nat) (now : Nat)

/-- Redis and the calls of all instances.  For each counter, the calls that it
has counted since it was made are kept, which the program does not do. -/
structure DistributedQuota where
  clock : Nat := 0
  redis : String → Option RedisCounter := fun _ => none
  calls : Nat → ScriptedCall := fun _ => .idle
  counted : String → List Nat := fun _ => []

namespace DistributedQuota

variable (specs : String → QuotaSpec) (quota : DistributedQuota)

/-- What a script leaves, for a call that is at this check. -/
def invoked (id : Nat) (keyId : String) (passed : List QuotaKind) (check : QuotaCheck)
    (remaining : List QuotaCheck) (now : Nat) : DistributedQuota :=
  let key := check.kind.keyFor keyId
  let found := RedisCounter.found (quota.redis key) now
  let (answer, stored) :=
    incrScript (signed check.increment) (signed check.kind.window) (signed check.limit) now found
  if answer = -1 then
    { clock := now
      redis := Function.update quota.redis key stored
      calls := Function.update quota.calls id
        (.answered keyId passed (.deny check.kind.window check.limit check.kind))
      counted := quota.counted }
  else
    { clock := now
      redis := Function.update quota.redis key stored
      calls := Function.update quota.calls id
        (.proceed keyId (passed ++ [check.kind]) remaining)
      counted := Function.update quota.counted key
        (id :: if found.isSome then quota.counted key else []) }

/-- One event.  All callers pass one token. -/
def step : QuotaEvent → Option DistributedQuota
  | .start id keyId =>
      match quota.calls id with
      | .idle =>
          some { quota with
            calls := Function.update quota.calls id (.proceed keyId [] ((specs keyId).checks 1)) }
      | _ => none
  | .invoke id now =>
      match quota.calls id with
      | .checking keyId passed (check :: remaining) =>
          if quota.clock ≤ now then some (quota.invoked id keyId passed check remaining now)
          else none
      | _ => none

/-! ## What is promised -/

/-- The call has counted in the buckets it has passed, in their order, and has
been allowed only behind all of them. -/
def Consistent : ScriptedCall → Prop
  | .idle => True
  | .checking keyId passed remaining => remaining ≠ [] ∧
      passed ++ remaining.map QuotaCheck.kind = ((specs keyId).checks 1).map QuotaCheck.kind ∧
      remaining <:+ (specs keyId).checks 1
  | .answered keyId passed (.allow _) =>
      passed = ((specs keyId).checks 1).map QuotaCheck.kind
  | .answered keyId passed (.deny _ _ kind) =>
      passed ++ [kind] <+: ((specs keyId).checks 1).map QuotaCheck.kind

/-- The call has counted in this bucket: it has been allowed, or is still
checking, or has been denied at a later one. -/
def HasCounted (keyId : String) (kind : QuotaKind) : ScriptedCall → Prop
  | .idle => False
  | .checking caller passed _ | .answered caller passed _ => caller = keyId ∧ kind ∈ passed

/-- What holds of the counter of a bucket. -/
structure CounterSound (keyId : String) (kind : QuotaKind) (counter : RedisCounter) : Prop where
  limited : ∃ limit, (specs keyId).limit kind = some limit ∧ counter.value ≤ limit.toNat
  fits : 0 ≤ counter.value ∧ counter.value < 2 ^ 63
  expires : ∃ expireAt, counter.expireAt = some expireAt ∧
    expireAt ≤ quota.clock + signed kind.window
  counts : counter.value = (quota.counted (kind.keyFor keyId)).length
  once : (quota.counted (kind.keyFor keyId)).Nodup
  callers : ∀ id ∈ quota.counted (kind.keyFor keyId), HasCounted keyId kind (quota.calls id)

/-- What holds at every moment. -/
structure Sound : Prop where
  counters : ∀ keyId kind counter, quota.redis (kind.keyFor keyId) = some counter →
    quota.CounterSound specs keyId kind counter
  calls : ∀ id, Consistent specs (quota.calls id)

/-- A call is denied only if the counter of the bucket is at its limit. -/
def DeniesFull : QuotaEvent → Prop
  | .start _ _ => True
  | .invoke id now => ∀ keyId passed check remaining next,
      quota.calls id = .checking keyId passed (check :: remaining) →
      quota.step specs (.invoke id now) = some next →
      next.calls id = .answered keyId passed (.deny check.kind.window check.limit check.kind) →
      RedisCounter.read (RedisCounter.found (quota.redis (check.kind.keyFor keyId)) now) =
        check.limit.toNat

/-- The limit of the bucket that is checked is not too large for a signed number. -/
def Fits : QuotaEvent → Prop
  | .start _ _ => True
  | .invoke id now => quota.clock ≤ now → ∀ keyId passed check remaining,
      quota.calls id = .checking keyId passed (check :: remaining) → check.limit.toNat < 2 ^ 63

end DistributedQuota

/-! ## Numbers and keys -/

theorem signed_eq {word : UInt64} (small : word.toNat < 2 ^ 63) : signed word = word.toNat := by
  apply BitVec.toInt_eq_toNat_of_lt
  change 2 * word.toNat < 2 ^ 64
  omega

/-- A large word is taken for a negative number. -/
theorem signed_neg {word : UInt64} (large : 2 ^ 63 ≤ word.toNat) : signed word < 0 := by
  have bound : word.toNat < 2 ^ 64 := word.toNat_lt
  have toInt : signed word = if 2 * word.toNat < 2 ^ 64 then (word.toNat : Int)
      else word.toNat - (2 ^ 64 : Nat) :=
    BitVec.toInt_eq_toNat_cond word.toBitVec
  rw [toInt, if_neg (by omega)]
  omega

theorem QuotaKind.keyFor_inj {keyId other : String} {kind otherKind : QuotaKind} :
    kind.keyFor keyId = otherKind.keyFor other ↔ keyId = other ∧ kind = otherKind := by
  constructor
  · intro same
    have chars := congrArg String.toList same
    have parts : ∀ (keyId : String) (kind : QuotaKind), (kind.keyFor keyId).toList =
        ("tiygate:quota:" ++ keyId ++ ":").toList ++ kind.label.toList :=
      fun _ _ => String.toList_append
    rw [parts, parts] at chars
    have lengths : kind.label.toList.length = otherKind.label.toList.length := by
      cases kind <;> cases otherKind <;> decide +kernel
    rcases List.append_inj' chars lengths with ⟨front, label⟩
    rw [String.toList_append, String.toList_append, String.toList_append, String.toList_append]
      at front
    constructor
    · exact String.toList_inj.mp (List.append_cancel_left (List.append_cancel_right front))
    · have labels := String.toList_inj.mp label
      cases kind <;> cases otherKind <;> first | rfl | exact absurd labels (by decide)
  · rintro ⟨rfl, rfl⟩
    rfl

namespace QuotaSpec

variable (spec : QuotaSpec)

/-- Every check is of a bucket with a limit. -/
theorem limit_of_mem {tokens : UInt64} {check : QuotaCheck} (mem : check ∈ spec.checks tokens) :
    spec.limit check.kind = some check.limit := by
  rw [checks, List.mem_append, List.mem_append, List.mem_append, Option.mem_toList,
    Option.mem_toList, Option.mem_toList, Option.mem_toList] at mem
  rcases mem with ((mem | mem) | mem) | mem
  all_goals
    rcases Option.map_eq_some_iff.mp mem with ⟨limit, there, rfl⟩
    exact there

/-- With one token, every bucket is charged one. -/
theorem increment_of_mem {check : QuotaCheck} (mem : check ∈ spec.checks 1) :
    check.increment = 1 := by
  rw [checks, List.mem_append, List.mem_append, List.mem_append, Option.mem_toList,
    Option.mem_toList, Option.mem_toList, Option.mem_toList] at mem
  rcases mem with ((mem | mem) | mem) | mem
  all_goals
    rcases Option.map_eq_some_iff.mp mem with ⟨limit, _, rfl⟩
    rfl

/-- Every bucket is checked once. -/
theorem nodup_kinds (tokens : UInt64) : ((spec.checks tokens).map QuotaCheck.kind).Nodup := by
  rcases spec with ⟨rpm, rpd, tpm, tpd⟩
  cases rpm <;> cases rpd <;> cases tpm <;> cases tpd <;> simp [checks]

end QuotaSpec

/-! ## One script -/

theorem incrScript_of_full {inc ttl limit : Int} {now : Nat} {found : Option RedisCounter}
    (full : limit < RedisCounter.read found + inc) :
    incrScript inc ttl limit now found = (-1, found) :=
  if_pos full

/-- The counter that a script leaves which has found room. -/
theorem incrScript_of_room {ttl limit : Int} {now : Nat} {found : Option RedisCounter}
    (room : RedisCounter.read found + 1 ≤ limit) :
    incrScript 1 ttl limit now found =
      (RedisCounter.read found + 1,
        some
          { value := RedisCounter.read found + 1
            expireAt :=
              if RedisCounter.read found = 0 then some (now + ttl)
              else found.bind RedisCounter.expireAt }) := by
  rw [incrScript, if_neg (Int.not_lt.mpr room)]
  dsimp only
  by_cases fresh : RedisCounter.read found = 0
  · rw [if_pos fresh, if_pos (by omega)]
  · rw [if_neg fresh, if_neg (by omega)]

theorem RedisCounter.found_eq_or (stored : Option RedisCounter) (now : Nat) :
    found stored now = none ∨ found stored now = stored := by
  cases stored with
  | none => exact Or.inl rfl
  | some counter =>
      rw [found, Option.filter_some]
      split
      · exact Or.inr rfl
      · exact Or.inl rfl

namespace DistributedQuota

variable {specs : String → QuotaSpec} {quota next : DistributedQuota} {event : QuotaEvent}
  {id now : Nat} {keyId : String} {passed : List QuotaKind} {check : QuotaCheck}
  {remaining : List QuotaCheck}

/-- What Redis finds under the key of the check. -/
def foundFor (quota : DistributedQuota) (keyId : String) (kind : QuotaKind) (now : Nat) :
    Option RedisCounter :=
  RedisCounter.found (quota.redis (kind.keyFor keyId)) now

theorem Sound.found (sound : quota.Sound specs) {kind : QuotaKind} {counter : RedisCounter}
    (there : quota.foundFor keyId kind now = some counter) :
    quota.redis (kind.keyFor keyId) = some counter ∧ quota.CounterSound specs keyId kind counter := by
  rcases RedisCounter.found_eq_or (quota.redis (kind.keyFor keyId)) now with gone | same
  · cases gone.symm.trans there
  · have stored := same.symm.trans there
    exact ⟨stored, sound.counters keyId kind counter stored⟩

/-- The number that a script reads is the number of calls that it has counted. -/
theorem Sound.read_eq (sound : quota.Sound specs) (kind : QuotaKind) :
    RedisCounter.read (quota.foundFor keyId kind now) =
      (if (quota.foundFor keyId kind now).isSome then quota.counted (kind.keyFor keyId)
        else []).length := by
  cases there : quota.foundFor keyId kind now with
  | none => rfl
  | some counter => exact (sound.found there).2.counts

/-- A call has counted where it had before, whatever happens to it. -/
theorem HasCounted.proceed {kind : QuotaKind} {other : String} {call : ScriptedCall}
    (before : ScriptedCall.checking keyId passed (check :: remaining) = call)
    (counted : HasCounted other kind call) :
    HasCounted other kind (.proceed keyId (passed ++ [check.kind]) remaining) ∧
      HasCounted other kind
        (.answered keyId passed (.deny check.kind.window check.limit check.kind)) := by
  rw [← before] at counted
  rcases counted with ⟨same, mem⟩
  constructor
  · cases remaining with
    | nil => exact ⟨same, List.mem_append_left _ mem⟩
    | cons check remaining => exact ⟨same, List.mem_append_left _ mem⟩
  · exact ⟨same, mem⟩

/-- The check that a call is at. -/
theorem Sound.checked (sound : quota.Sound specs)
    (at_ : quota.calls id = .checking keyId passed (check :: remaining)) :
    check ∈ (specs keyId).checks 1 ∧ check.kind ∉ passed ∧
      passed ++ check.kind :: remaining.map QuotaCheck.kind =
        ((specs keyId).checks 1).map QuotaCheck.kind ∧
      remaining <:+ (specs keyId).checks 1 := by
  have consistent := sound.calls id
  rw [at_] at consistent
  rcases consistent with ⟨_, kinds, suffix⟩
  rw [List.map_cons] at kinds
  refine ⟨suffix.subset List.mem_cons_self, ?_, kinds, ?_⟩
  · intro mem
    have nodup := (specs keyId).nodup_kinds 1
    rw [← kinds] at nodup
    exact (List.nodup_append.mp nodup).2.2 _ mem _ List.mem_cons_self rfl
  · exact (List.suffix_cons check remaining).trans suffix

theorem consistent_proceed
    (kinds : passed ++ remaining.map QuotaCheck.kind =
      ((specs keyId).checks 1).map QuotaCheck.kind)
    (suffix : remaining <:+ (specs keyId).checks 1) :
    Consistent specs (.proceed keyId passed remaining) := by
  cases remaining with
  | nil =>
      rw [List.map_nil, List.append_nil] at kinds
      exact kinds
  | cons check remaining => exact ⟨List.cons_ne_nil _ _, kinds, suffix⟩

/-- A script that finds its bucket full. -/
theorem invoked_of_full
    (full : signed check.limit < RedisCounter.read (quota.foundFor keyId check.kind now) +
      signed check.increment) :
    quota.invoked id keyId passed check remaining now =
      { clock := now
        redis := Function.update quota.redis (check.kind.keyFor keyId)
          (quota.foundFor keyId check.kind now)
        calls := Function.update quota.calls id
          (.answered keyId passed (.deny check.kind.window check.limit check.kind))
        counted := quota.counted } := by
  rw [invoked]
  dsimp only
  rw [foundFor] at full
  rw [incrScript_of_full full]
  rfl

/-- A script that finds room. -/
theorem invoked_of_room (sound : quota.Sound specs) (one : check.increment = 1)
    (room : RedisCounter.read (quota.foundFor keyId check.kind now) + 1 ≤ signed check.limit) :
    quota.invoked id keyId passed check remaining now =
      { clock := now
        redis := Function.update quota.redis (check.kind.keyFor keyId)
          (some
            { value := RedisCounter.read (quota.foundFor keyId check.kind now) + 1
              expireAt :=
                if RedisCounter.read (quota.foundFor keyId check.kind now) = 0 then
                  some (now + signed check.kind.window)
                else (quota.foundFor keyId check.kind now).bind RedisCounter.expireAt })
        calls := Function.update quota.calls id
          (.proceed keyId (passed ++ [check.kind]) remaining)
        counted := Function.update quota.counted (check.kind.keyFor keyId)
          (id :: if (quota.foundFor keyId check.kind now).isSome then
              quota.counted (check.kind.keyFor keyId) else []) } := by
  have count := @Sound.read_eq _ _ now keyId sound check.kind
  rw [invoked, one]
  dsimp only
  rw [foundFor] at room count ⊢
  have unit : signed 1 = 1 := rfl
  rw [unit, incrScript_of_room room, if_neg]
  dsimp only
  omega

/-- The counters behind a script that finds its bucket full. -/
theorem Sound.full (sound : quota.Sound specs) (late : quota.clock ≤ now)
    (at_ : quota.calls id = .checking keyId passed (check :: remaining)) :
    Sound specs
      { clock := now
        redis := Function.update quota.redis (check.kind.keyFor keyId)
          (quota.foundFor keyId check.kind now)
        calls := Function.update quota.calls id
          (.answered keyId passed (.deny check.kind.window check.limit check.kind))
        counted := quota.counted } := by
  rcases sound.checked at_ with ⟨_, _, kinds, _⟩
  constructor
  · intro other kind counter stored
    have before : quota.redis (kind.keyFor other) = some counter := by
      dsimp only at stored
      by_cases same : kind.keyFor other = check.kind.keyFor keyId
      · rw [same, Function.update_self] at stored
        rw [same]
        exact (sound.found stored).1
      · rwa [Function.update_of_ne same] at stored
    rcases sound.counters other kind counter before with
      ⟨limited, fits, ⟨expireAt, expires, soon⟩, counts, once, callers⟩
    refine ⟨limited, fits, ⟨expireAt, expires, ?_⟩, counts, once, ?_⟩
    · dsimp only
      omega
    · intro caller counted
      have before := callers caller counted
      dsimp only
      by_cases same : caller = id
      · rw [same, at_] at before
        rw [same, Function.update_self]
        exact (HasCounted.proceed rfl before).2
      · rwa [Function.update_of_ne same]
  · intro caller
    dsimp only
    by_cases same : caller = id
    · rw [same, Function.update_self]
      exact ⟨remaining.map QuotaCheck.kind, by rw [List.append_assoc]; exact kinds⟩
    · rw [Function.update_of_ne same]
      exact sound.calls caller

/-- The counter that a script leaves which has found room is sound. -/
theorem Sound.counter (sound : quota.Sound specs) (late : quota.clock ≤ now)
    (at_ : quota.calls id = .checking keyId passed (check :: remaining))
    (room : RedisCounter.read (quota.foundFor keyId check.kind now) + 1 ≤ signed check.limit)
    {calls : Nat → ScriptedCall} {redis : String → Option RedisCounter}
    {counted : String → List Nat}
    (calls_id : HasCounted keyId check.kind (calls id))
    (calls_other : ∀ other, other ≠ id → calls other = quota.calls other)
    (counted_eq : counted (check.kind.keyFor keyId) =
      id :: if (quota.foundFor keyId check.kind now).isSome then
          quota.counted (check.kind.keyFor keyId) else []) :
    CounterSound specs ⟨now, redis, calls, counted⟩ keyId check.kind
      { value := RedisCounter.read (quota.foundFor keyId check.kind now) + 1
        expireAt :=
          if RedisCounter.read (quota.foundFor keyId check.kind now) = 0 then
            some (now + signed check.kind.window)
          else (quota.foundFor keyId check.kind now).bind RedisCounter.expireAt } := by
  rcases sound.checked at_ with ⟨mem, fresh, _, _⟩
  have count := @Sound.read_eq _ _ now keyId sound check.kind
  have small : check.limit.toNat < 2 ^ 63 := by
    by_contra large
    have negative := signed_neg (Nat.not_lt.mp large)
    omega
  rw [signed_eq small] at room
  refine ⟨⟨check.limit, (specs keyId).limit_of_mem mem, room⟩, ⟨?_, ?_⟩, ?_, ?_, ?_, ?_⟩
  · dsimp only
    omega
  · dsimp only
    omega
  · dsimp only
    by_cases first : RedisCounter.read (quota.foundFor keyId check.kind now) = 0
    · rw [if_pos first]
      exact ⟨_, rfl, Int.le_refl _⟩
    · rw [if_neg first]
      cases there : quota.foundFor keyId check.kind now with
      | none =>
          rw [there] at first
          exact absurd rfl first
      | some counter =>
          rcases (sound.found there).2.expires with ⟨expireAt, expires, soon⟩
          exact ⟨expireAt, expires, by omega⟩
  · dsimp only
    rw [counted_eq, List.length_cons, count]
    rfl
  · dsimp only
    rw [counted_eq, List.nodup_cons]
    cases there : quota.foundFor keyId check.kind now with
    | none => exact ⟨List.not_mem_nil, List.nodup_nil⟩
    | some counter =>
        have before := (sound.found there).2
        constructor
        · intro again
          have counted := before.callers id again
          rw [at_] at counted
          exact fresh counted.2
        · exact before.once
  · dsimp only
    rw [counted_eq]
    intro caller is_counted
    rcases List.mem_cons.mp is_counted with same | earlier
    · rw [same]
      exact calls_id
    · by_cases same : caller = id
      · rw [same]
        exact calls_id
      · rw [calls_other caller same]
        cases there : quota.foundFor keyId check.kind now with
        | none =>
            rw [there] at earlier
            cases earlier
        | some counter =>
            rw [there] at earlier
            exact (sound.found there).2.callers caller earlier

/-- A script keeps everything sound. -/
theorem Sound.invoked (sound : quota.Sound specs) (late : quota.clock ≤ now)
    (at_ : quota.calls id = .checking keyId passed (check :: remaining)) :
    Sound specs (quota.invoked id keyId passed check remaining now) := by
  rcases sound.checked at_ with ⟨mem, _, kinds, suffix⟩
  have one := (specs keyId).increment_of_mem mem
  by_cases room : RedisCounter.read (quota.foundFor keyId check.kind now) + 1 ≤ signed check.limit
  · rw [invoked_of_room sound one room]
    have counts : HasCounted keyId check.kind
        (.proceed keyId (passed ++ [check.kind]) remaining) := by
      cases remaining with
      | nil => exact ⟨rfl, List.mem_append_right _ List.mem_cons_self⟩
      | cons check remaining => exact ⟨rfl, List.mem_append_right _ List.mem_cons_self⟩
    constructor
    · intro other kind counter stored
      dsimp only at stored
      by_cases same : kind.keyFor other = check.kind.keyFor keyId
      · rw [same, Function.update_self] at stored
        rcases QuotaKind.keyFor_inj.mp same with ⟨rfl, rfl⟩
        cases stored
        apply sound.counter late at_ room
        · rw [Function.update_self]
          exact counts
        · intro caller different
          rw [Function.update_of_ne different]
        · rw [Function.update_self]
      · rw [Function.update_of_ne same] at stored
        rcases sound.counters other kind counter stored with
          ⟨limited, fits, ⟨expireAt, expires, soon⟩, count, once, callers⟩
        refine ⟨limited, fits, ⟨expireAt, expires, ?_⟩, ?_, ?_, ?_⟩
        · dsimp only
          omega
        · dsimp only
          rw [Function.update_of_ne same, count]
        · dsimp only
          rw [Function.update_of_ne same]
          exact once
        · dsimp only
          rw [Function.update_of_ne same]
          intro caller counted
          have before := callers caller counted
          by_cases self : caller = id
          · rw [self, at_] at before
            rw [self, Function.update_self]
            exact (HasCounted.proceed rfl before).1
          · rwa [Function.update_of_ne self]
    · intro caller
      dsimp only
      by_cases same : caller = id
      · rw [same, Function.update_self]
        apply consistent_proceed _ suffix
        rw [List.append_assoc]
        exact kinds
      · rw [Function.update_of_ne same]
        exact sound.calls caller
  · rw [invoked_of_full (by rw [one]; exact Int.not_le.mp room)]
    exact sound.full late at_

/-- Every event keeps everything sound. -/
theorem Sound.step (sound : quota.Sound specs) (taken : quota.step specs event = some next) :
    next.Sound specs := by
  cases event with
  | start id keyId =>
      rw [DistributedQuota.step] at taken
      split at taken
      · rename_i idle
        cases taken
        constructor
        · intro other kind counter stored
          rcases sound.counters other kind counter stored with
            ⟨limited, fits, expires, count, once, callers⟩
          refine ⟨limited, fits, expires, count, once, ?_⟩
          intro caller counted
          have before := callers caller counted
          dsimp only
          by_cases same : caller = id
          · rw [same, idle] at before
            cases before
          · rwa [Function.update_of_ne same]
        · intro caller
          dsimp only
          by_cases same : caller = id
          · rw [same, Function.update_self]
            exact consistent_proceed rfl (List.suffix_refl _)
          · rw [Function.update_of_ne same]
            exact sound.calls caller
      · cases taken
  | invoke id now =>
      rw [DistributedQuota.step] at taken
      split at taken
      · rename_i keyId passed check remaining at_
        split at taken
        · rename_i late
          cases taken
          exact sound.invoked late at_
        · cases taken
      · cases taken

theorem Sound.initial : Sound specs {} where
  counters := fun _ _ _ stored => by cases stored
  calls := fun _ => trivial

theorem step_invoke (late : quota.clock ≤ now)
    (at_ : quota.calls id = .checking keyId passed (check :: remaining)) :
    quota.step specs (.invoke id now) =
      some (quota.invoked id keyId passed check remaining now) := by
  rw [step, at_]
  exact if_pos late

/-- A script denies a call at the limit exactly if the limit is a signed number. -/
theorem Sound.deniesFull_iff (sound : quota.Sound specs) :
    quota.DeniesFull specs event ↔ quota.Fits event := by
  cases event with
  | start id keyId => exact Iff.rfl
  | invoke id now =>
      constructor
      · intro denies late keyId passed check remaining at_
        have one := (specs keyId).increment_of_mem (sound.checked at_).1
        by_contra large
        have negative := signed_neg (Nat.not_lt.mp large)
        have count := @Sound.read_eq _ _ now keyId sound check.kind
        have full : signed check.limit < RedisCounter.read (quota.foundFor keyId check.kind now) +
            signed check.increment := by
          rw [one, count]
          change _ < ((_ : Nat) : Int) + 1
          omega
        have at_limit := denies keyId passed check remaining _ at_ (step_invoke late at_) (by
          rw [invoked_of_full full]
          exact Function.update_self ..)
        change RedisCounter.read (quota.foundFor keyId check.kind now) = _ at at_limit
        cases there : quota.foundFor keyId check.kind now with
        | none =>
            rw [there] at at_limit
            change (0 : Int) = _ at at_limit
            omega
        | some counter =>
            have fits := (sound.found there).2.fits.2
            rw [there] at at_limit
            change counter.value = _ at at_limit
            omega
      · intro fits keyId passed check remaining next at_ taken denied
        by_cases late : quota.clock ≤ now
        · rw [step_invoke late at_] at taken
          cases taken
          rcases sound.checked at_ with ⟨mem, _, _, _⟩
          have one := (specs keyId).increment_of_mem mem
          have small := signed_eq (fits late keyId passed check remaining at_)
          change RedisCounter.read (quota.foundFor keyId check.kind now) = _
          by_cases room :
              RedisCounter.read (quota.foundFor keyId check.kind now) + 1 ≤ signed check.limit
          · rw [invoked_of_room sound one room] at denied
            dsimp only at denied
            rw [Function.update_self] at denied
            cases remaining with
            | nil => cases (ScriptedCall.answered.inj denied).2.2
            | cons check remaining => cases denied
          · rw [small] at room
            cases there : quota.foundFor keyId check.kind now with
            | none =>
                rw [there] at room
                change (0 : Int) = _
                change ¬ (0 : Int) + 1 ≤ _ at room
                omega
            | some counter =>
                rcases (sound.found there).2.limited with ⟨limit, is_limit, le⟩
                rw [(specs keyId).limit_of_mem mem, Option.some.injEq] at is_limit
                rw [there] at room
                rw [is_limit] at room ⊢
                change counter.value = _
                change ¬ counter.value + 1 ≤ _ at room
                omega
        · rw [DistributedQuota.step, at_] at taken
          dsimp only at taken
          rw [if_neg late] at taken
          cases taken

/-- The quotas hold across all instances: every counter is within its limit,
has an end, and counts calls, and a call is denied only at a limit. -/
def HoldsAcross (specs : String → QuotaSpec) (events : List QuotaEvent) : Prop :=
  Always (step specs) (Sound specs) {} events ∧
    Along (step specs) (fun quota => quota.DeniesFull specs) {} events

/-- The quotas hold in exactly the runs in which no limit is checked that is too
large for a signed number. -/
theorem holdsAcross_iff (specs : String → QuotaSpec) (events : List QuotaEvent) :
    HoldsAcross specs events ↔ Along (step specs) Fits {} events := by
  have always : Always (step specs) (Sound specs) {} events := by
    intro front _ last ran
    exact Runs.invariant (fun sound taken => Sound.step sound taken) Sound.initial ran
  rw [HoldsAcross, and_iff_right always]
  constructor
  · intro denies
    apply Runs.along_of_invariant (fun sound _ taken => Sound.step sound taken) _ Sound.initial denies
    intro quota event sound holds
    exact sound.deniesFull_iff.mp holds
  · intro fits
    apply Runs.along_of_invariant (fun sound _ taken => Sound.step sound taken) _ Sound.initial fits
    intro quota event sound holds
    exact sound.deniesFull_iff.mpr holds

/-- A key that may send 2^63 requests a minute. -/
def generous : QuotaSpec where
  requestsPerMinute := some 9223372036854775808

/-- Its first request is denied. -/
theorem not_holdsAcross_generous :
    ¬ HoldsAcross (fun _ => generous) [.start 0 "k", .invoke 0 0] := by
  rintro ⟨_, denies⟩
  have started : ∃ quota, step (fun _ => generous) {} (.start 0 "k") = some quota ∧
      quota.calls 0 = .checking "k" [] [⟨.requestsPerMinute, 1, 9223372036854775808⟩] ∧
      quota.clock = 0 ∧ quota.redis = fun _ => none := ⟨_, rfl, rfl, rfl, rfl⟩
  rcases started with ⟨quota, taken, at_, clock, redis⟩
  have read := (denies.2 quota taken).1 "k" [] _ [] _ at_ (step_invoke (by rw [clock]) at_) (by
    rw [invoked, redis]
    rfl)
  rw [redis] at read
  cases read

end DistributedQuota

end TiyGate.Core

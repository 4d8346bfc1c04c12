import TiyGate.Admin.BruteForce
import TiyGate.Data.Runs

/-!
# The two brute-force limiters

The hash in Redis expires together with the lockout it stands for, and with it
the count of the lockouts, so that no lockout escalates; failures that are
pending for long are forgotten too, and a successful login ends a lockout.
While none of this happens, the two limiters cannot be told apart.
-/

namespace TiyGate.Admin

open Runs (run Along)

/-! ## Numbers -/

theorem millis_eq {secs : UInt64} (small : secs.toNat * 1000 ≤ 2 ^ 53) :
    millis secs = (secs.toNat * 1000 : Nat) := by
  have product : (secs * 1000).toNat = secs.toNat * 1000 := by
    rw [UInt64.toNat_mul]
    apply Nat.mod_eq_of_lt
    change secs.toNat * 1000 < 2 ^ 64
    omega
  have signed : 2 * (secs * 1000).toBitVec.toNat < 2 ^ 64 := by
    change 2 * (secs * 1000).toNat < 2 ^ 64
    omega
  rw [← product]
  exact BitVec.toInt_eq_toNat_of_lt signed

namespace LuaNumbers

variable (lua : LuaNumbers)

theorem round_natCast {number : Nat} (small : number ≤ 2 ^ 53) : lua.round number = number :=
  lua.round_eq_self number (by rw [Int.natAbs_natCast]; exact small)

end LuaNumbers

namespace BruteForceConfig

variable (config : BruteForceConfig)

def lockoutMs : Nat :=
  config.lockoutSecs.toNat * 1000

def escalatedMs : Nat :=
  config.escalatedLockoutSecs.toNat * 1000

/-- The script gets the numbers of the configuration, where they are small. -/
theorem failArguments_eq (lua : LuaNumbers) {now : Nat}
    (small : now + config.lockoutMs + config.escalatedMs ≤ 2 ^ 53) :
    config.failArguments lua now =
      { now := now
        maxFailures := config.maxFailures.toNat
        lockoutMs := config.lockoutMs
        maxLockouts := config.maxLockouts.toNat
        escalatedMs := config.escalatedMs } := by
  have lockout : config.lockoutMs ≤ 2 ^ 53 := by omega
  have escalated : config.escalatedMs ≤ 2 ^ 53 := by omega
  have failures := config.maxFailures.toNat_lt
  have lockouts := config.maxLockouts.toNat_lt
  rw [failArguments, millis_eq lockout, millis_eq escalated]
  change FailArguments.mk _ _ (lua.round config.lockoutMs) _ (lua.round config.escalatedMs) = _
  rw [lua.round_natCast (by omega), lua.round_natCast (by omega), lua.round_natCast lockout,
    lua.round_natCast (by omega), lua.round_natCast escalated]

/-- A lockout takes the same time in memory and in Redis if both escalate it or
neither does, or if that does not matter. -/
theorem same_duration (now : Nat) {count : Nat} {lockouts : Int}
    (small : now + config.lockoutMs + config.escalatedMs ≤ 2 ^ 53)
    (alike : (config.maxLockouts.toNat ≤ count + 1 ↔
        (config.maxLockouts.toNat : Int) ≤ lockouts + 1) ∨
      config.lockoutMs = config.escalatedMs) :
    ∃ duration kept : Nat,
      (if config.maxLockouts.toNat ≤ count + 1 then
          (true, AttemptState.mk 0 0 (some (now + config.escalatedLockoutSecs.toNat * 1000)))
        else
          (true, AttemptState.mk 0 (count + 1) (some (now + config.lockoutSecs.toNat * 1000)))) =
        (true, AttemptState.mk 0 kept (some (now + duration))) ∧
      (if lockouts + 1 ≥ (config.maxLockouts.toNat : Int) then (config.escalatedMs : Int)
        else config.lockoutMs) = duration ∧
      now + duration ≤ 2 ^ 53 := by
  by_cases long : config.maxLockouts.toNat ≤ count + 1
  · refine ⟨config.escalatedMs, 0, if_pos long, ?_, by omega⟩
    rcases alike with alike | equal
    · exact if_pos (alike.mp long)
    · rw [equal, ite_self]
  · refine ⟨config.lockoutMs, count + 1, if_neg long, ?_, by omega⟩
    rcases alike with alike | equal
    · exact if_neg fun other => long (alike.mpr other)
    · rw [equal, ite_self]

end BruteForceConfig

/-! ## One client -/

namespace AttemptState

variable {state : AttemptState} {now : Nat}

theorem locked_iff : state.locked now = true ↔ 0 < state.lockedFor now := by
  rw [locked, lockedFor]
  cases state.lockedUntil with
  | none => simp
  | some deadline =>
      rw [Option.any_some, decide_eq_true_iff, Option.getD_some, Nat.sub_pos_iff_lt]

end AttemptState

namespace AttemptHash

variable {stored : Option AttemptHash} {now : Nat}

theorem found_some (hash : AttemptHash) (now : Nat) :
    found (some hash) now = if hash.live now then some hash else none := by
  rw [found, Option.filter_some]

theorem found_eq_or (stored : Option AttemptHash) (now : Nat) :
    found stored now = none ∨ found stored now = stored := by
  cases stored with
  | none => exact Or.inl rfl
  | some hash =>
      rw [found_some]
      split
      · exact Or.inr rfl
      · exact Or.inl rfl

/-- A lockout that is over is over for good. -/
theorem lockedFor_eq_zero
    (passedBy : ∀ hash, stored = some hash → hash.lockedUntil.getD 0 ≤ now) {later : Nat}
    (after : now ≤ later) : lockedFor stored later = 0 := by
  cases stored with
  | none => simp [lockedFor, found]
  | some hash =>
      have passed := passedBy hash rfl
      rw [lockedFor, found_some]
      split
      · rw [Option.bind_some]
        omega
      · simp

/-- The hash of a lockout lives as long as the lockout. -/
theorem lockedFor_pexpire {hash : AttemptHash} {duration : Nat}
    (locked : hash.lockedUntil = some ((now : Int) + duration)) {later : Nat}
    (after : now ≤ later) :
    lockedFor (hash.pexpire now duration) later = now + duration - later := by
  rw [pexpire]
  split
  · rename_i nothing
    have ended : now + duration - later = 0 := by omega
    rw [ended]
    exact lockedFor_eq_zero (fun hash eq => by cases eq) after
  · rw [lockedFor, found_some]
    split
    · rw [Option.bind_some]
      dsimp only
      rw [locked, Option.getD_some]
      omega
    · rename_i gone
      rw [live, Option.all_some, decide_eq_true_iff] at gone
      rw [Option.bind_none, Option.getD_none]
      omega

end AttemptHash

/-- The record in memory and what is stored in Redis say the same of a client,
except how many lockouts it has had. -/
structure Matches (clock : Nat) (state : AttemptState) (stored : Option AttemptHash) : Prop where
  counted : ∀ hash, stored = some hash → hash.failures.getD 0 = state.consecutiveFailures
  lockouts : ∀ hash, stored = some hash →
    0 ≤ hash.lockouts.getD 0 ∧ hash.lockouts.getD 0 < 2 ^ 32
  few : state.consecutiveFailures < 2 ^ 32
  locks : ∀ now, clock ≤ now → state.lockedFor now = AttemptHash.lockedFor stored now

/-- The failure is counted on what Redis still has: the failures that are
pending have not expired, and the lockouts have not either, if they matter. -/
structure Counting (config : BruteForceConfig) (now : Nat) (state : AttemptState)
    (found : Option AttemptHash) : Prop where
  pending : state.consecutiveFailures = 0 ∨ found.isSome
  escalates : config.maxFailures.toNat ≤ state.consecutiveFailures + 1 →
    (config.maxLockouts.toNat ≤ state.lockoutCount + 1 ↔
        (config.maxLockouts.toNat : Int) ≤ (found.bind AttemptHash.lockouts).getD 0 + 1) ∨
      config.lockoutMs = config.escalatedMs

namespace Matches

variable {config : BruteForceConfig} {lua : LuaNumbers} {clock now : Nat} {state : AttemptState}
  {stored : Option AttemptHash}

theorem initial (clock : Nat) : Matches clock {} none where
  counted := fun hash eq => by cases eq
  lockouts := fun hash eq => by cases eq
  few := Nat.two_pow_pos 32
  locks := fun now _ => by simp [AttemptState.lockedFor, AttemptHash.lockedFor, AttemptHash.found]

theorem later (same : Matches clock state stored) (after : clock ≤ now) :
    Matches now state stored :=
  { same with locks := fun later late => same.locks later (Nat.le_trans after late) }

theorem locked_iff (same : Matches now state stored) :
    state.locked now = true ↔
      (now : Int) < ((AttemptHash.found stored now).getD {}).lockedUntil.getD 0 := by
  rw [AttemptState.locked_iff, same.locks now (Nat.le_refl now), AttemptHash.lockedFor]
  cases AttemptHash.found stored now with
  | none => simp
  | some hash =>
      rw [Option.bind_some, Option.getD_some]
      omega

/-- A record that is purged is no different from one that was never made. -/
theorem purged (same : Matches now state stored) (useless : ¬ state.kept now = true) :
    Matches now {} stored := by
  rw [AttemptState.kept, Bool.or_eq_true, Bool.or_eq_true, decide_eq_true_iff, decide_eq_true_iff,
    not_or, not_or] at useless
  rcases useless with ⟨⟨unlocked, nothing⟩, _⟩
  have zero : state.consecutiveFailures = 0 := Nat.eq_zero_of_not_pos nothing
  refine { same with counted := ?_, few := Nat.two_pow_pos 32, locks := ?_ }
  · intro hash eq
    rw [same.counted hash eq, zero]
  · intro later after
    rw [← same.locks later after]
    rw [AttemptState.locked_iff, AttemptState.lockedFor] at unlocked
    rw [AttemptState.lockedFor, AttemptState.lockedFor, Option.getD_none]
    omega

/-- A login of a client that is not locked out clears both. -/
theorem succeed (unlocked : ¬ state.locked now = true) :
    Matches now state.succeed none where
  counted := fun hash eq => by cases eq
  lockouts := fun hash eq => by cases eq
  few := Nat.two_pow_pos 32
  locks := by
    intro later after
    rw [AttemptState.locked_iff, AttemptState.lockedFor] at unlocked
    rw [AttemptHash.lockedFor_eq_zero (fun hash eq => by cases eq) after]
    change state.lockedUntil.getD 0 - later = 0
    omega

/-- A client that both lock out, for the same time. -/
theorem locking {hash : AttemptHash} {duration count : Nat}
    (cleared : hash.failures = some 0)
    (small : 0 ≤ hash.lockouts.getD 0 ∧ hash.lockouts.getD 0 < 2 ^ 32)
    (locked : hash.lockedUntil = some ((now : Int) + duration)) :
    Matches now ⟨0, count, some (now + duration)⟩ (hash.pexpire now duration) where
  counted := by
    intro other eq
    rw [AttemptHash.pexpire] at eq
    split at eq
    · cases eq
    · cases eq
      dsimp only
      rw [cleared]
      rfl
  lockouts := by
    intro other eq
    rw [AttemptHash.pexpire] at eq
    split at eq
    · cases eq
    · cases eq
      exact small
  few := Nat.two_pow_pos 32
  locks := by
    intro later after
    rw [AttemptHash.lockedFor_pexpire locked after]
    rfl

/-- A failure that is only counted. -/
theorem counting {hash : AttemptHash} {failures count : Nat} {duration : Int}
    (counted : hash.failures = some (failures : Int)) (few : failures < 2 ^ 32)
    (small : 0 ≤ hash.lockouts.getD 0 ∧ hash.lockouts.getD 0 < 2 ^ 32)
    (unlocked : hash.lockedUntil.getD 0 ≤ now) :
    Matches now ⟨failures, count, none⟩ (hash.pexpire now duration) where
  counted := by
    intro other eq
    rw [AttemptHash.pexpire] at eq
    split at eq
    · cases eq
    · cases eq
      dsimp only
      rw [counted]
      rfl
  lockouts := by
    intro other eq
    rw [AttemptHash.pexpire] at eq
    split at eq
    · cases eq
    · cases eq
      exact small
  few := few
  locks := by
    intro later after
    rw [AttemptHash.lockedFor_eq_zero _ after]
    · exact Nat.zero_sub later
    · intro other eq
      rw [AttemptHash.pexpire] at eq
      split at eq
      · cases eq
      · cases eq
        exact unlocked

/-- A failure has the same answer in both, and is counted the same. -/
theorem fail (same : Matches now state stored)
    (small : now + config.lockoutMs + config.escalatedMs ≤ 2 ^ 53)
    (counts : ¬ state.locked now = true →
      Counting config now state (AttemptHash.found stored now)) :
    (state.fail config now).1 = decide ((failScript lua (config.failArguments lua now) now
        (AttemptHash.found stored now)).1 = 1) ∧
      Matches now (state.fail config now).2
        (failScript lua (config.failArguments lua now) now (AttemptHash.found stored now)).2 := by
  rw [config.failArguments_eq lua small, AttemptState.fail, failScript]
  dsimp only
  by_cases locked : state.locked now = true
  · rw [if_pos locked, if_pos (same.locked_iff.mp locked)]
    refine ⟨rfl, ?_⟩
    rcases AttemptHash.found_eq_or stored now with gone | found
    · have nothing := same.locked_iff.mp locked
      rw [gone] at nothing
      simp at nothing
      omega
    · rw [found]
      exact same
  · rw [if_neg locked, if_neg (fun more => locked (same.locked_iff.mpr more))]
    have counts := counts locked
    -- what the script reads are the counts in memory
    have failures : ((AttemptHash.found stored now).getD {}).failures.getD 0 =
        state.consecutiveFailures := by
      rcases AttemptHash.found_eq_or stored now with gone | found
      · have none := counts.pending.resolve_right (by rw [gone]; simp)
        rw [gone, none]
        rfl
      · rw [found]
        cases stored with
        | none =>
            have none := counts.pending.resolve_right (by rw [found]; simp)
            rw [none]
            rfl
        | some hash => exact same.counted hash rfl
    have lockouts : 0 ≤ ((AttemptHash.found stored now).getD {}).lockouts.getD 0 ∧
        ((AttemptHash.found stored now).getD {}).lockouts.getD 0 < 2 ^ 32 := by
      cases eq : AttemptHash.found stored now with
      | none => exact ⟨Int.le_refl 0, by decide⟩
      | some hash =>
          rcases AttemptHash.found_eq_or stored now with gone | found
          · rw [gone] at eq
            cases eq
          · exact same.lockouts hash (found.symm.trans eq)
    have read : ((AttemptHash.found stored now).bind AttemptHash.lockouts).getD 0 =
        ((AttemptHash.found stored now).getD {}).lockouts.getD 0 := by
      cases AttemptHash.found stored now <;> rfl
    have unlocked : ((AttemptHash.found stored now).getD {}).lockedUntil.getD 0 ≤ now :=
      Int.not_lt.mp fun more => locked (same.locked_iff.mpr more)
    have escalates := counts.escalates
    rw [read] at escalates
    generalize (AttemptHash.found stored now).getD {} = hash
      at failures lockouts escalates unlocked ⊢
    have maxFailures := config.maxFailures.toNat_lt
    have maxLockouts := config.maxLockouts.toNat_lt
    have next : lua.round (hash.failures.getD 0 + 1) = (state.consecutiveFailures + 1 : Nat) := by
      rw [failures]
      exact lua.round_natCast (Nat.le_trans same.few (by decide))
    have nextLockout : lua.round (hash.lockouts.getD 0 + 1) = hash.lockouts.getD 0 + 1 :=
      lua.round_eq_self _ (by omega)
    rw [next, nextLockout]
    by_cases reached : config.maxFailures.toNat ≤ state.consecutiveFailures + 1
    · have reached' : ¬ ((state.consecutiveFailures + 1 : Nat) : Int) < config.maxFailures.toNat := by
        omega
      rw [if_pos reached, if_neg reached']
      have both := config.same_duration now small (escalates reached)
      rcases both with ⟨duration, count, memory, redis, ends⟩
      have deadline : lua.round ((now : Int) + duration) = now + duration := by
        rw [← Int.natCast_add]
        exact lua.round_natCast ends
      rw [memory, redis, deadline]
      refine ⟨rfl, locking rfl ?_ rfl⟩
      dsimp only
      rw [Option.getD_some]
      split <;> omega
    · have fewer : ((state.consecutiveFailures + 1 : Nat) : Int) < config.maxFailures.toNat := by
        omega
      rw [if_neg reached, if_pos fewer]
      exact ⟨rfl, counting rfl (by omega) lockouts unlocked⟩

end Matches

/-! ## All clients -/

namespace AttemptStates

variable (states : AttemptStates) (clientId : String) (now : Nat)

/-- A record is purged only where it is of no use. -/
theorem purgeExpired_eq_or :
    (states.purgeExpired now clientId).getD {} = (states clientId).getD {} ∨
      (states.purgeExpired now clientId).getD {} = {} ∧
        ¬ ((states clientId).getD {}).kept now = true := by
  rw [purgeExpired]
  cases states clientId with
  | none => exact Or.inl rfl
  | some state =>
      rw [Option.filter_some]
      split
      · exact Or.inl rfl
      · rename_i useless
        exact Or.inr ⟨rfl, useless⟩

theorem isLocked_eq :
    states.isLocked clientId now = ((states.purgeExpired now clientId).getD {}).locked now := by
  rw [isLocked]
  cases states.purgeExpired now clientId <;> rfl

end AttemptStates

theorem AttemptHashes.isLocked_iff (hashes : AttemptHashes) (clientId : String) (now : Nat) :
    hashes.isLocked clientId now = true ↔
      (now : Int) < ((hashes.found clientId now).getD {}).lockedUntil.getD 0 := by
  rw [isLocked]
  cases hashes.found clientId now with
  | none => simp
  | some hash =>
      rw [Option.bind_some, Option.getD_some]
      cases hash.lockedUntil with
      | none => simp
      | some deadline => simp

theorem keyFor_inj {clientId other : String} : keyFor clientId = keyFor other ↔ clientId = other := by
  constructor
  · intro same
    have chars := congrArg String.toList same
    rw [keyFor, keyFor, String.toList_append, String.toList_append] at chars
    exact String.toList_inj.mp (List.append_cancel_left chars)
  · exact congrArg keyFor

namespace Limiters

/-- Both say the same of every client. -/
def Same (limiters : Limiters) : Prop :=
  ∀ clientId, Matches limiters.clock ((limiters.memory clientId).getD {})
    (limiters.redis (keyFor clientId))

/-- The call is one that the two limiters cannot disagree on: a successful
login of a client that is not locked out, or a failed one that is counted on
what Redis still has; and all numbers are exact in Lua. -/
def Kept (config : BruteForceConfig) (limiters : Limiters) : LimiterCall → Prop
  | .isLocked _ _ => True
  | .recordFailure clientId now =>
      now + config.lockoutMs + config.escalatedMs ≤ 2 ^ 53 ∧
        (¬ ((limiters.memory clientId).getD {}).locked now = true →
          Counting config now ((limiters.memory clientId).getD {})
            (limiters.redis.found clientId now))
  | .recordSuccess clientId now => ¬ ((limiters.memory clientId).getD {}).locked now = true

variable {lua : LuaNumbers} {config : BruteForceConfig} {limiters next : Limiters}
  {call : LimiterCall} {clientId : String} {now : Nat}

theorem Same.purged (same : limiters.Same) (after : limiters.clock ≤ now) (clientId : String) :
    Matches now ((limiters.memory.purgeExpired now clientId).getD {})
      (limiters.redis (keyFor clientId)) := by
  have matching := (same clientId).later after
  rcases limiters.memory.purgeExpired_eq_or clientId now with kept | ⟨purged, useless⟩
  · rw [kept]
    exact matching
  · rw [purged]
    exact matching.purged useless

/-- To purge a record changes nothing of what is counted. -/
theorem counting_purged
    (counts : ¬ ((limiters.memory clientId).getD {}).locked now = true →
      Counting config now ((limiters.memory clientId).getD {})
        (limiters.redis.found clientId now)) :
    ¬ ((limiters.memory.purgeExpired now clientId).getD {}).locked now = true →
      Counting config now ((limiters.memory.purgeExpired now clientId).getD {})
        (limiters.redis.found clientId now) := by
  intro unlocked
  rcases limiters.memory.purgeExpired_eq_or clientId now with kept | ⟨purged, useless⟩
  · rw [kept] at unlocked ⊢
    exact counts unlocked
  · rw [purged]
    rw [AttemptState.kept, Bool.or_eq_true, Bool.or_eq_true, decide_eq_true_iff,
      decide_eq_true_iff, not_or, not_or] at useless
    have counts := counts useless.1.1
    have failures := Nat.eq_zero_of_not_pos useless.1.2
    have lockouts := Nat.eq_zero_of_not_pos useless.2
    constructor
    · exact Or.inl rfl
    · have escalates := counts.escalates
      rw [failures, lockouts] at escalates
      exact escalates

/-- A call that is kept has the same answer in both, and both say the same
afterwards. -/
theorem Same.answered (same : limiters.Same) (kept : limiters.Kept config call)
    (after : limiters.clock ≤ call.time) :
    limiters.memoryAnswer config call = limiters.redisAnswer lua config call ∧
      ∀ clientId, Matches call.time ((limiters.memoryAfter config call clientId).getD {})
        (limiters.redisAfter lua config call (keyFor clientId)) := by
  cases call with
  | isLocked clientId now =>
      constructor
      · apply congrArg some
        rw [Bool.eq_iff_iff, AttemptStates.isLocked_eq, AttemptHashes.isLocked_iff]
        exact (same.purged after clientId).locked_iff
      · exact same.purged after
  | recordFailure clientId now =>
      rcases kept with ⟨small, counts⟩
      have failed := @Matches.fail _ lua _ _ _ (same.purged after clientId) small (counting_purged counts)
      constructor
      · exact congrArg some failed.1
      · intro other
        dsimp only [memoryAfter, redisAfter, AttemptStates.recordFailure,
          AttemptHashes.recordFailure]
        by_cases self : other = clientId
        · rw [self, Function.update_self, Function.update_self]
          exact failed.2
        · rw [Function.update_of_ne self, Function.update_of_ne (mt keyFor_inj.mp self)]
          exact same.purged after other
  | recordSuccess clientId now =>
      constructor
      · rfl
      · intro other
        dsimp only [memoryAfter, redisAfter, AttemptStates.recordSuccess,
          AttemptHashes.recordSuccess]
        by_cases self : other = clientId
        · rw [self, Function.update_self, Function.update_self]
          cases eq : limiters.memory clientId with
          | none => exact Matches.initial now
          | some state =>
              rw [Kept, eq] at kept
              exact Matches.succeed kept
        · rw [Function.update_of_ne self, Function.update_of_ne (mt keyFor_inj.mp self)]
          exact (same other).later after

theorem Same.step (same : limiters.Same) (kept : limiters.Kept config call)
    (taken : limiters.step lua config call = some next) :
    limiters.memoryAnswer config call = limiters.redisAnswer lua config call ∧ next.Same := by
  rw [Limiters.step] at taken
  split at taken
  · rename_i after
    cases taken
    exact same.answered kept after
  · cases taken

theorem Same.sameLockouts (same : limiters.Same) : limiters.SameLockouts := by
  intro clientId now after
  exact (same clientId).locks now after

/-- The two limiters agree on every call, from the first one. -/
def RedisRefinesMemory (lua : LuaNumbers) (config : BruteForceConfig)
    (calls : List LimiterCall) : Prop :=
  Along (step lua config) (Agree lua config) {} calls

/-- In a run all of whose calls are kept, the limiter in Redis is the one in
memory. -/
theorem redisRefinesMemory_of_kept (lua : LuaNumbers) (config : BruteForceConfig)
    (calls : List LimiterCall) (kept : Along (step lua config) (Kept config) {} calls) :
    RedisRefinesMemory lua config calls := by
  apply Runs.along_of_invariant (I := Same) _ _ (fun clientId => Matches.initial 0) kept
  · intro limiters call next same kept taken
    exact (same.step kept taken).2
  · intro limiters call same kept next taken
    have after := same.step kept taken
    exact ⟨after.1, after.2.sameLockouts⟩

instance (config : BruteForceConfig) (now : Nat) (state : AttemptState)
    (found : Option AttemptHash) : Decidable (Counting config now state found) :=
  decidable_of_iff
    ((state.consecutiveFailures = 0 ∨ found.isSome) ∧
      (config.maxFailures.toNat ≤ state.consecutiveFailures + 1 →
        (config.maxLockouts.toNat ≤ state.lockoutCount + 1 ↔
            (config.maxLockouts.toNat : Int) ≤ (found.bind AttemptHash.lockouts).getD 0 + 1) ∨
          config.lockoutMs = config.escalatedMs))
    ⟨fun both => ⟨both.1, both.2⟩, fun counting => ⟨counting.pending, counting.escalates⟩⟩

instance (config : BruteForceConfig) (limiters : Limiters) (call : LimiterCall) :
    Decidable (limiters.Kept config call) :=
  match call with
  | .isLocked _ _ => inferInstanceAs (Decidable True)
  | .recordFailure _ _ => inferInstanceAs (Decidable (_ ∧ (¬ _ → Counting _ _ _ _)))
  | .recordSuccess _ _ => inferInstanceAs (Decidable (¬ _ = true))

/-- Numbers that are never rounded. -/
def exactNumbers : LuaNumbers where
  round := id
  round_eq_self := fun _ _ => rfl

/-- A client fails three times in a row, from the given time on. -/
def failing (clientId : String) (now : Nat) : List LimiterCall :=
  [.recordFailure clientId now, .recordFailure clientId (now + 1),
    .recordFailure clientId (now + 2)]

/-- Locked out once, and logged in again. -/
theorem redisRefinesMemory_once :
    RedisRefinesMemory exactNumbers {}
      (failing "a" 0 ++ [.isLocked "a" 300001, .isLocked "a" 300003, .recordSuccess "a" 300003,
        .recordFailure "a" 300004]) :=
  redisRefinesMemory_of_kept _ _ _ (by decide +kernel)

/-- Locked out for the third time, a client gets a day in memory, and five
minutes in Redis. -/
theorem not_redisRefinesMemory_thrice :
    ¬ RedisRefinesMemory exactNumbers {}
      (failing "a" 0 ++ failing "a" 300003 ++ failing "a" 600006 ++ [.isLocked "a" 900009]) := by
  intro refines
  have answers : (run (step exactNumbers {}) {}
      (failing "a" 0 ++ failing "a" 300003 ++ failing "a" 600006)).map (fun limiters =>
        (limiters.memoryAnswer {} (.isLocked "a" 900009),
          limiters.redisAnswer exactNumbers {} (.isLocked "a" 900009),
          decide (limiters.clock ≤ 900009))) = some (some true, some false, true) := by
    decide +kernel
  rcases Option.map_eq_some_iff.mp answers with ⟨limiters, ran, answers⟩
  rcases Prod.mk.inj answers with ⟨memory, answers⟩
  rcases Prod.mk.inj answers with ⟨redis, after⟩
  have agree := (Runs.along_append ran refines).2.1 _ (if_pos (of_decide_eq_true after))
  rw [memory, redis] at agree
  cases agree.1

end Limiters

end TiyGate.Admin

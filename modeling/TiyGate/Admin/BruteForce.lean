import Mathlib.Algebra.GroupWithZero.Nat
import Mathlib.Algebra.Ring.Int.Defs
import Mathlib.Logic.Function.Basic
import Mathlib.Tactic.Common

/-!
# Brute-force protection of the admin API

Too many failed logins in a row lock a client out, and too many lockouts in a
row lock it out for longer.  One backend keeps a record for each client in
memory; the other keeps a hash in Redis, that a script updates and that expires.
Times are in milliseconds.
-/

namespace TiyGate.Admin

structure BruteForceConfig where
  maxFailures : UInt32 := 3
  lockoutSecs : UInt64 := 300
  maxLockouts : UInt32 := 3
  escalatedLockoutSecs : UInt64 := 86400

/-! ## In memory -/

/-- What is kept for a client. -/
structure AttemptState where
  consecutiveFailures : Nat := 0
  lockoutCount : Nat := 0
  lockedUntil : Option Nat := none

namespace AttemptState

variable (config : BruteForceConfig) (state : AttemptState) (now : Nat)

def locked : Bool :=
  state.lockedUntil.any fun deadline => now < deadline

/-- How long the client is still locked out. -/
def lockedFor : Nat :=
  state.lockedUntil.getD 0 - now

/-- The record is of use: an active lockout, or something to count on. -/
def kept : Bool :=
  state.locked now || 0 < state.consecutiveFailures || 0 < state.lockoutCount

/-- A failed login.  The answer is whether it has started a lockout. -/
def fail : Bool × AttemptState :=
  if state.locked now then (false, state)
  else if config.maxFailures.toNat ≤ state.consecutiveFailures + 1 then
    if config.maxLockouts.toNat ≤ state.lockoutCount + 1 then
      (true,
        { consecutiveFailures := 0
          lockoutCount := 0
          lockedUntil := some (now + config.escalatedLockoutSecs.toNat * 1000) })
    else
      (true,
        { consecutiveFailures := 0
          lockoutCount := state.lockoutCount + 1
          lockedUntil := some (now + config.lockoutSecs.toNat * 1000) })
  else
    -- a lockout that has expired is cleared
    (false,
      { consecutiveFailures := state.consecutiveFailures + 1
        lockoutCount := state.lockoutCount
        lockedUntil := none })

/-- A successful login, which does not end a lockout. -/
def succeed : AttemptState :=
  { state with
    consecutiveFailures := 0
    lockoutCount := 0 }

end AttemptState

/-- The records of the in-memory limiter. -/
abbrev AttemptStates :=
  String → Option AttemptState

namespace AttemptStates

variable (config : BruteForceConfig) (states : AttemptStates) (clientId : String) (now : Nat)

/-- Forget the records that are of no use any more. -/
def purgeExpired : AttemptStates :=
  fun clientId => (states clientId).filter fun state => state.kept now

def isLocked : Bool :=
  (states.purgeExpired now clientId).elim false fun state => state.locked now

/-- The record of the client, which is made where there is none, and what a
failed login makes of it. -/
def failure : Bool × AttemptState :=
  ((states.purgeExpired now clientId).getD {}).fail config now

def recordFailure : AttemptStates :=
  Function.update (states.purgeExpired now) clientId (some (states.failure config clientId now).2)

def recordSuccess : AttemptStates :=
  Function.update states clientId ((states clientId).map AttemptState.succeed)

end AttemptStates

/-! ## In Redis -/

/-- The numbers of Lua are floating point: what is computed is rounded, though
not as long as it is small. -/
structure LuaNumbers where
  round : Int → Int
  round_eq_self : ∀ number : Int, number.natAbs ≤ 2 ^ 53 → round number = number

/-- The hash that is kept for a client.  Redis deletes it after its time. -/
structure AttemptHash where
  failures : Option Int := none
  lockouts : Option Int := none
  lockedUntil : Option Int := none
  expireAt : Option Int := none

namespace AttemptHash

/-- The hash has not expired. -/
def live (hash : AttemptHash) (now : Int) : Bool :=
  hash.expireAt.all fun expireAt => now ≤ expireAt

/-- What Redis finds of what is stored under a key. -/
def found (stored : Option AttemptHash) (now : Nat) : Option AttemptHash :=
  stored.filter fun hash => hash.live now

/-- How long the client of the key is still locked out. -/
def lockedFor (stored : Option AttemptHash) (now : Nat) : Nat :=
  (((found stored now).bind AttemptHash.lockedUntil).getD 0 - now).toNat

/-- `PEXPIRE`: a time that is not positive deletes the key at once. -/
def pexpire (hash : AttemptHash) (now duration : Int) : Option AttemptHash :=
  if duration ≤ 0 then none
  else some { hash with expireAt := some (now + duration) }

end AttemptHash

/-- The arguments of the script, as numbers of Lua. -/
structure FailArguments where
  now : Int
  maxFailures : Int
  lockoutMs : Int
  maxLockouts : Int
  escalatedMs : Int

/-- `FAIL_SCRIPT`, on the hash it finds, at a time of the Redis server. -/
def failScript (lua : LuaNumbers) (arguments : FailArguments) (clock : Int)
    (found : Option AttemptHash) : Int × Option AttemptHash :=
  let hash := found.getD {}
  if hash.lockedUntil.getD 0 > arguments.now then (0, found)
  else
    let failures := lua.round (hash.failures.getD 0 + 1)
    if failures < arguments.maxFailures then
      (0, { hash with failures := some failures }.pexpire clock
        (lua.round (arguments.lockoutMs + arguments.escalatedMs)))
    else
      let lockouts := lua.round (hash.lockouts.getD 0 + 1)
      let lockoutDuration :=
        if lockouts ≥ arguments.maxLockouts then arguments.escalatedMs else arguments.lockoutMs
      (1,
        { hash with
          failures := some 0
          lockouts := some (if lockouts ≥ arguments.maxLockouts then 0 else lockouts)
          lockedUntil := some (lua.round (arguments.now + lockoutDuration)) }.pexpire clock
            lockoutDuration)

/-- The hashes of the Redis limiter. -/
abbrev AttemptHashes :=
  String → Option AttemptHash

/-- `(secs * 1000) as i64`. -/
def millis (secs : UInt64) : Int :=
  (secs * 1000).toInt64.toInt

def keyFor (clientId : String) : String :=
  "tiygate:bf:" ++ clientId

/-- What the script is called with. -/
def BruteForceConfig.failArguments (config : BruteForceConfig) (lua : LuaNumbers) (now : Nat) :
    FailArguments where
  now := lua.round now
  maxFailures := lua.round config.maxFailures.toNat
  lockoutMs := lua.round (millis config.lockoutSecs)
  maxLockouts := lua.round config.maxLockouts.toNat
  escalatedMs := lua.round (millis config.escalatedLockoutSecs)

namespace AttemptHashes

variable (lua : LuaNumbers) (config : BruteForceConfig) (hashes : AttemptHashes)
  (clientId : String) (now : Nat)

/-- What Redis finds under the key of the client. -/
def found : Option AttemptHash :=
  AttemptHash.found (hashes (keyFor clientId)) now

def isLocked : Bool :=
  ((hashes.found clientId now).bind AttemptHash.lockedUntil).any fun deadline =>
    (now : Int) < deadline

/-- What the script answers, and what it leaves under the key. -/
def failure : Int × Option AttemptHash :=
  failScript lua (config.failArguments lua now) now (hashes.found clientId now)

def recordFailure : AttemptHashes :=
  Function.update hashes (keyFor clientId) (hashes.failure lua config clientId now).2

def recordSuccess : AttemptHashes :=
  Function.update hashes (keyFor clientId) none

/-- How long the client is still locked out. -/
def lockedFor : Nat :=
  AttemptHash.lockedFor (hashes (keyFor clientId)) now

end AttemptHashes

/-! ## Both -/

/-- A call of the limiter. -/
inductive LimiterCall
  | isLocked (clientId : String) (now : Nat)
  | recordFailure (clientId : String) (now : Nat)
  | recordSuccess (clientId : String) (now : Nat)

/-- When the call is made. -/
def LimiterCall.time : LimiterCall → Nat
  | .isLocked _ now | .recordFailure _ now | .recordSuccess _ now => now

/-- The two limiters, which get the same calls. -/
structure Limiters where
  clock : Nat := 0
  memory : AttemptStates := fun _ => none
  redis : AttemptHashes := fun _ => none

namespace Limiters

variable (lua : LuaNumbers) (config : BruteForceConfig) (limiters : Limiters)

/-- The answer of the limiter in memory. -/
def memoryAnswer : LimiterCall → Option Bool
  | .isLocked clientId now => some (limiters.memory.isLocked clientId now)
  | .recordFailure clientId now => some (limiters.memory.failure config clientId now).1
  | .recordSuccess _ _ => none

/-- The answer of the limiter in Redis. -/
def redisAnswer : LimiterCall → Option Bool
  | .isLocked clientId now => some (limiters.redis.isLocked clientId now)
  | .recordFailure clientId now => some ((limiters.redis.failure lua config clientId now).1 = 1)
  | .recordSuccess _ _ => none

/-- What the limiter in memory keeps after a call. -/
def memoryAfter : LimiterCall → AttemptStates
  | .isLocked _ now => limiters.memory.purgeExpired now
  | .recordFailure clientId now => limiters.memory.recordFailure config clientId now
  | .recordSuccess clientId _ => limiters.memory.recordSuccess clientId

/-- What the limiter in Redis keeps after a call. -/
def redisAfter : LimiterCall → AttemptHashes
  | .isLocked _ _ => limiters.redis
  | .recordFailure clientId now => limiters.redis.recordFailure lua config clientId now
  | .recordSuccess clientId _ => limiters.redis.recordSuccess clientId

/-- A call of both; time does not go back. -/
def step (call : LimiterCall) : Option Limiters :=
  if limiters.clock ≤ call.time then
    some
      { clock := call.time
        memory := limiters.memoryAfter config call
        redis := limiters.redisAfter lua config call }
  else none

/-- Every client is locked out for as long in memory as in Redis, now and later. -/
def SameLockouts : Prop :=
  ∀ clientId now, limiters.clock ≤ now →
    ((limiters.memory clientId).getD {}).lockedFor now = limiters.redis.lockedFor clientId now

/-- The two give the same answer to the call, and lock everybody out for as
long afterwards. -/
def Agree (call : LimiterCall) : Prop :=
  ∀ next, limiters.step lua config call = some next →
    limiters.memoryAnswer config call = limiters.redisAnswer lua config call ∧ next.SameLockouts

end Limiters

end TiyGate.Admin

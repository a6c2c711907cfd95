/-
# The health report of the agent

`health_checks` judges a node by the region that its daemon publishes, and the agent
calls the node healthy unless a critical check fails. Here the report is traced back
through the bytes of the region to the node itself, in every run of the daemon. It knows
the node as the last tick left it. A node in HOLDOVER is reported as not calibrated, and
the check of the error count cannot fail.
-/

import DrsSync.Agent.Layout
import DrsSync.Telemetry.Published

namespace DrsSync

open DrsSync.Math

/-! ## Microseconds in a text -/

/-- The quotient as an integer, rounded to the nearest one and to the even one of two. -/
def roundHalfEven (a b : ℕ) : ℕ :=
  if b < 2 * (a % b) ∨ 2 * (a % b) = b ∧ a / b % 2 = 1 then a / b + 1 else a / b

/-- `n / 1000` in units of 2⁻⁶². A `float` has 53 binary digits, so that it is a multiple of
the power of two that is 52 digits below its first one; a quotient by 1000 of less than 2⁶⁴
is never below that unit. -/
def floatThousandth (n : ℕ) : ℕ :=
  let quantum := 1 <<< Nat.log2 (n * 1024 / 1000)
  roundHalfEven (n <<< 62) (1000 * quantum) * quantum

/-- The tenths that the format `.1f` shows of it, which it rounds once more. -/
def tenths (n : ℕ) : ℕ := roundHalfEven (10 * floatThousandth n) (1 <<< 62)

/-- The text of `x / 1000` in the format `.1f`. -/
def thousandthText (x : ℤ) : String :=
  (if x < 0 then "-" else "") ++ toString (tenths x.natAbs / 10) ++ "." ++
    toString (tenths x.natAbs % 10)

theorem two_mul_roundHalfEven (a : ℕ) {b : ℕ} (hb : 0 < b) :
    2 * (roundHalfEven a b * b) ≤ 2 * a + b ∧ 2 * a ≤ 2 * (roundHalfEven a b * b) + b := by
  have hsplit := Nat.div_add_mod' a b
  have hless := Nat.mod_lt a hb
  rw [roundHalfEven]
  split
  · rw [Nat.add_one_mul (a / b) b]
    omega
  · omega

/-- Up to 104 days in nanoseconds, the text is no more than half a tenth of a microsecond
away from the number, for all its roundings. -/
theorem abs_tenths_sub_le {n : ℕ} (h : n < 9007199254740992) :
    |100 * (tenths n : ℤ) - n| ≤ 50 := by
  have hunit : 1 <<< 62 = 4611686018427387904 := rfl
  have hunits : n <<< 62 = n * 4611686018427387904 := Nat.shiftLeft_eq n 62
  rcases Nat.eq_zero_or_pos n with rfl | hpos
  · decide
  · have hquantum : 1 <<< Nat.log2 (n * 1024 / 1000) ≤ n * 1024 / 1000 := by
      rw [Nat.one_shiftLeft]
      exact Nat.log2_self_le (by omega)
    have hone : 0 < 1 <<< Nat.log2 (n * 1024 / 1000) := by
      rw [Nat.one_shiftLeft]
      exact Nat.two_pow_pos _
    rw [tenths, floatThousandth, hunit, hunits]
    generalize 1 <<< Nat.log2 (n * 1024 / 1000) = quantum at hquantum hone
    obtain ⟨habove, hbelow⟩ :=
      two_mul_roundHalfEven (n * 4611686018427387904) (b := 1000 * quantum) (by omega)
    have hscaled (m : ℕ) : m * (1000 * quantum) = 1000 * (m * quantum) :=
      Nat.mul_left_comm m 1000 quantum
    rw [hscaled] at habove hbelow
    generalize roundHalfEven (n * 4611686018427387904) (1000 * quantum) * quantum = float
      at habove hbelow
    obtain ⟨habove', hbelow'⟩ :=
      two_mul_roundHalfEven (10 * float) (b := 4611686018427387904) (by decide)
    exact abs_le.mpr ⟨by omega, by omega⟩

/-! ## The checks -/

inductive Severity
  | critical
  | warning
  | info
  deriving DecidableEq

/-- An entry of the list of checks. -/
structure HealthCheck where
  name : String
  severity : Severity
  ok : Bool
  message : String
  deriving DecidableEq

/-- An entry of the dictionary that is compared with numbers; all of these are integers. -/
def PyValue.toInt : PyValue → ℤ
  | .int v => v
  | .bytes _ => 0
  | .str _ => 0

/-- An entry of the dictionary in a text; none of these are bytes. -/
def PyValue.text : PyValue → String
  | .int v => toString v
  | .bytes _ => ""
  | .str s => s

/-- `health_checks`, on the dictionary of `decode_telemetry`, which may be empty. Whether
the file of the region exists is an argument. -/
def healthChecks (present : Bool) (tel : Option AgentTelemetry) : List HealthCheck :=
  let stateId := tel.elim (-1) (·.stateId.toInt)
  let absOff := |tel.elim 999999 (·.offsetNs.toInt)|
  let rtt := tel.elim 0 (·.lastRttNs.toInt)
  let errCnt := tel.elim 0 (·.errorCount.toInt)
  [⟨"daemon_running", .critical, present, "drs_syncd shared memory present"⟩,
    ⟨"state_active", .critical, stateId ≥ 2,
      "State = " ++ tel.elim "UNKNOWN" (·.state.text) ++ " (need >= LISTEN)"⟩,
    ⟨"calibrated", .warning, tel.elim false (·.isCalibrated), "Latency calibration complete"⟩,
    ⟨"converged", .warning, tel.elim false (·.converged), "|offset| < 100 µs for 10 s"⟩,
    ⟨"offset_ok", .warning, absOff < 100000,
      "|offset| = " ++ thousandthText absOff ++ " µs (threshold 100 µs)"⟩,
    ⟨"not_holdover", .warning, !tel.elim true (·.isHoldover), "Not in HOLDOVER mode"⟩,
    ⟨"rtt_ok", .info, 0 < rtt ∧ rtt < 5000000, "RTT = " ++ thousandthText rtt ++ " µs"⟩,
    ⟨"gpio_stable", .info, tel.elim false (·.converged),
      "GPIO 23 stability (proxy: convergence)"⟩,
    ⟨"lock_auto", .info, tel.elim false (·.lockMode = .str "AUTO"),
      "Lock mode = " ++ tel.elim "None" (·.lockMode.text)⟩,
    ⟨"low_errors", .info, errCnt < 10, "Error ring count = " ++ toString errCnt⟩,
    ⟨"pid_valid", .info, tel.elim 0 (·.pid.toInt) > 0,
      "Daemon PID = " ++ tel.elim "0" (·.pid.text)⟩,
    ⟨"pulse_active", .info, tel.elim 0 (·.pulseCount.toInt) > 0,
      "Pulse count = " ++ tel.elim "0" (·.pulseCount.text)⟩]

/-- The verdict of `handle_sync_health`. -/
def healthy (checks : List HealthCheck) : Bool :=
  !checks.any fun c => c.severity = .critical && !c.ok

/-! ## The checks of a region -/

/-- What the checks say of a node whose region shows it as `n`. -/
def reportOf (present : Bool) (tel : Telemetry) (n : Node) : List HealthCheck :=
  [⟨"daemon_running", .critical, present, "drs_syncd shared memory present"⟩,
    ⟨"state_active", .critical, n.sm.state.IsActive,
      "State = " ++ (nameOrStr stateNames n.sm.state.toUInt32.toNat).text ++ " (need >= LISTEN)"⟩,
    ⟨"calibrated", .warning, n.sm.state.IsActive ∧ n.sm.state ≠ .holdover,
      "Latency calibration complete"⟩,
    ⟨"converged", .warning, tel.convergenceUnixNs ≠ 0, "|offset| < 100 µs for 10 s"⟩,
    ⟨"offset_ok", .warning, |tel.offsetNs.toInt| < 100000,
      "|offset| = " ++ thousandthText |tel.offsetNs.toInt| ++ " µs (threshold 100 µs)"⟩,
    ⟨"not_holdover", .warning, n.sm.state ≠ .holdover, "Not in HOLDOVER mode"⟩,
    ⟨"rtt_ok", .info, 0 < tel.lastRttNs.toInt ∧ tel.lastRttNs.toInt < 5000000,
      "RTT = " ++ thousandthText tel.lastRttNs.toInt ++ " µs"⟩,
    ⟨"gpio_stable", .info, tel.convergenceUnixNs ≠ 0, "GPIO 23 stability (proxy: convergence)"⟩,
    ⟨"lock_auto", .info, tel.lockMode = LockMode.auto.toUInt32,
      "Lock mode = " ++ (nameOrStr lockNames tel.lockMode.toNat).text⟩,
    ⟨"low_errors", .info, true, "Error ring count = 0"⟩,
    ⟨"pid_valid", .info, tel.pid ≠ 0, "Daemon PID = " ++ toString tel.pid.toNat⟩,
    ⟨"pulse_active", .info, n.pe.pulseCount ≠ 0,
      "Pulse count = " ++ toString n.pe.pulseCount.toNat⟩]

/-- The state number is at least that of LISTEN in the states beyond calibration. -/
theorem two_le_toUInt32_iff (s : DrsState) :
    decide ((s.toUInt32.toNat : ℤ) ≥ 2) = decide s.IsActive := by
  cases s <;> rfl

theorem publishedFlags_calibrated (s : DrsState) :
    decide (s.publishedFlags &&& drsFlagCalibrated ≠ 0) =
      decide (s.IsActive ∧ s ≠ .holdover) := by
  cases s <;> rfl

theorem publishedFlags_holdover (s : DrsState) :
    (!decide (s.publishedFlags &&& drsFlagHoldover ≠ 0)) = decide (s ≠ .holdover) := by
  cases s <;> rfl

/-- A counter shows as positive unless it is zero. -/
theorem toNat_pos_iff (x : UInt32) : decide ((x.toNat : ℤ) > 0) = decide (x ≠ 0) := by
  have hzero : x = 0 ↔ x.toNat = 0 := UInt32.toNat_inj.symm
  rw [decide_eq_decide, ne_eq, hzero]
  omega

/-- The text of the lock mode is the one of AUTO for that mode only. -/
theorem lockMode_auto_iff (m : UInt32) :
    decide (nameOrStr lockNames m.toNat = .str "AUTO") =
      decide (m = LockMode.auto.toUInt32) := by
  have hauto : PyValue.str "AUTO" = nameOrStr lockNames (0 : ℕ) := rfl
  rw [decide_eq_decide, hauto]
  constructor
  · intro h
    exact UInt32.toNat_inj.mp (nameOrStr_lockNames_inj h)
  · intro h
    rw [h]
    rfl

/-- The checks of a region that shows a node. -/
theorem healthChecks_agentView (present : Bool) {tel : Telemetry} {n : Node} (h : tel.Shows n)
    (herrors : tel.errorCount = 0) :
    healthChecks present (some (agentView tel)) = reportOf present tel n := by
  have hstate := two_le_toUInt32_iff n.sm.state
  have hcalibrated := publishedFlags_calibrated n.sm.state
  have hholdover := publishedFlags_holdover n.sm.state
  have hlock := lockMode_auto_iff tel.lockMode
  have hpid := toNat_pos_iff tel.pid
  have hpulses := toNat_pos_iff n.pe.pulseCount
  have hfew : decide (((0 : UInt32).toNat : ℤ) < 10) = true := rfl
  have hcount : "Error ring count = " ++ toString ((0 : UInt32).toNat : ℤ) =
      "Error ring count = 0" := rfl
  have hnumber (x : UInt32) : (PyValue.int x.toNat).text = toString x.toNat := rfl
  simp only [healthChecks, reportOf, agentView, Option.elim_some, PyValue.toInt, herrors, h.state,
    h.flags, h.pulseCount, hstate, hcalibrated, hholdover, hlock, hpid, hpulses, hfew, hcount,
    hnumber]

/-- Only two checks are critical. -/
theorem healthy_reportOf (present : Bool) (tel : Telemetry) (n : Node) :
    healthy (reportOf present tel n) = (present && decide n.sm.state.IsActive) := by
  rw [healthy, reportOf]
  cases present with
  | false => rfl
  | true =>
      cases decide n.sm.state.IsActive <;> rfl

namespace Node

/-- In every run of the daemon, the agent reads from the bytes of its region a report on
the node as its last tick left it, whatever the padding of the region holds: the node is
healthy exactly when the region's file exists and the node is beyond its calibration, it
shows as calibrated only outside HOLDOVER, and its errors are never too many. -/
theorem health_report_run (env : BootEnv) (evs : List Event) (present : Bool) :
    if env.telemetryMapped then
      ∃ tel, (run step (boot env) evs).tel = some tel ∧ ∀ padAlign pad2 reserved,
        ∃ t, decodeTelemetry (TelemetryRegion.mk tel padAlign pad2 reserved).image.toList =
            .decoded t ∧
          healthChecks present (some t) =
            reportOf present tel (run step (boot env) (upToLastTick evs)) ∧
          (healthy (healthChecks present (some t)) = true ↔
            present = true ∧ (run step (boot env) (upToLastTick evs)).sm.state.IsActive)
    else (run step (boot env) evs).tel = none := by
  have hsome := run_tel_isSome env evs
  split
  · rename_i hmapped
    rw [hmapped] at hsome
    obtain ⟨tel, htel⟩ := Option.isSome_iff_exists.mp hsome
    obtain ⟨⟨-, -, -, herrors⟩, hshows, -⟩ := shows_last_tick env evs tel htel
    refine ⟨tel, htel, fun padAlign pad2 reserved => ⟨agentView tel, ?_, ?_, ?_⟩⟩
    · rw [decodeTelemetry_eq, telemetryOf_image]
    · exact healthChecks_agentView present hshows herrors
    · rw [healthChecks_agentView present hshows herrors, healthy_reportOf, Bool.and_eq_true,
        decide_eq_true_eq]
  · rename_i hunmapped
    rw [Bool.not_eq_true _ |>.mp hunmapped] at hsome
    exact Option.isSome_eq_false_iff.mp hsome |> Option.isNone_iff_eq_none.mp

end Node

end DrsSync

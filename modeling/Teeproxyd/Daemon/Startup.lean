import Teeproxyd.Daemon.Sys

/-!
# `startup.rs`

The startup machine, advanced by one step on every iteration of the main loop.
-/

namespace Teeproxyd

inductive StartupPhase
  | notStarted
  | vmStarting
  | waitingVsock (deadline bootStart : Instant) (delayDone : Bool)
  | caStarting
  | waitingCaPort (deadline : Instant)
  | complete
  | failed (reason : String)
deriving DecidableEq, Repr

namespace StartupPhase

/-- `NotStarted`, `Failed` and `Complete`, which the machine never leaves. -/
def isFinal : StartupPhase → Bool
  | notStarted | failed _ | complete => true
  | _ => false

def isWaitingCaPort : StartupPhase → Bool
  | waitingCaPort _ => true
  | _ => false

end StartupPhase

/-- What one call of `advance_startup` is answered: a VM start, a vsock probe,
a CA start or a port probe, whichever it makes. -/
structure StartupEnv where
  vmStart : StartEnv
  vsockUp : Bool
  vsockTook : ℕ
  caStart : StartEnv
  portUp : Bool
  portTook : ℕ

/-- `advance_startup`.  An error is a panic, where a deadline overflows. -/
def advanceStartup (cfg : Config) (startup : StartupPhase) (sys : Sys)
    (env : StartupEnv) : Except Kernel (StartupPhase × Sys) :=
  if sys.vm.isDead sys.kernel && !startup.isFinal then
    if sys.vm.crashCount < 5 then .ok (.vmStarting, sys)
    else .ok (.failed "VM crashed too many times", sys)
  else if sys.ca.isDead sys.kernel && startup.isWaitingCaPort then
    if sys.ca.crashCount < 5 then .ok (.caStarting, sys)
    else .ok (.failed "CA crashed too many times", sys)
  else
    match startup with
    | .notStarted => .ok (startup, sys)
    | .complete => .ok (startup, sys)
    | .failed _ => .ok (startup, sys)
    | .vmStarting =>
        match VmManager.start cfg sys.vm sys.kernel env.vmStart with
        | (vm, k, .ok ()) =>
            -- the sum of the two delays wraps in a release build
            match k.now.plus
                (fromSecs (cfg.vsockProbeDelaySecs + cfg.vmBootTimeoutSecs)) with
            | none => .error k
            | some deadline =>
                .ok (.waitingVsock deadline k.now false,
                  { sys with vm := vm, kernel := k })
        | (vm, k, .error e) =>
            .ok (.failed e, { sys with vm := vm, kernel := k })
    | .waitingVsock deadline bootStart delayDone =>
        if !delayDone then
          if bootStart.elapsed sys.kernel.now ≥
              fromSecs cfg.vsockProbeDelaySecs then
            .ok (.waitingVsock deadline bootStart true, sys)
          else .ok (startup, sys)
        else if sys.kernel.now > deadline then
          .ok (.failed "vsock timeout", sys)
        else
          let k := VmManager.probeVsock sys.kernel env.vsockUp env.vsockTook
          if env.vsockUp then
            .ok (.caStarting,
              { sys with
                vm := sys.vm.setState .ready k.now
                kernel := k.emit (.ready .vm) })
          else .ok (startup, { sys with kernel := k })
    | .caStarting =>
        match CaManager.start cfg sys.ca sys.kernel env.caStart with
        | (ca, k, .ok ()) =>
            match k.now.plus (fromSecs cfg.caReadyTimeoutSecs) with
            | none => .error k
            | some deadline =>
                .ok (.waitingCaPort deadline,
                  { sys with ca := ca, kernel := k })
        | (ca, k, .error e) =>
            .ok (.failed e, { sys with ca := ca, kernel := k })
    | .waitingCaPort deadline =>
        let k := CaManager.isPortReady sys.kernel env.portUp env.portTook
        if env.portUp then
          .ok (.complete,
            { sys with
              ca := sys.ca.setState .ready k.now
              kernel := k.emit (.ready .ca) })
        else if k.now > deadline then .ok (.complete, { sys with kernel := k })
        else .ok (startup, { sys with kernel := k })

/-! ## One call, phase by phase -/

section Phases

variable {cfg : Config} {startup : StartupPhase} {sys : Sys} {env : StartupEnv}

theorem advanceStartup_of_isFinal (h : startup.isFinal = true) :
    advanceStartup cfg startup sys env = .ok (startup, sys) := by
  cases startup <;> cases h <;>
    simp [advanceStartup, StartupPhase.isFinal, StartupPhase.isWaitingCaPort]

theorem advanceStartup_vmDead (hphase : startup.isFinal = false)
    (hdead : sys.vm.isDead sys.kernel = true) :
    advanceStartup cfg startup sys env =
      .ok (if sys.vm.crashCount < 5 then .vmStarting
        else .failed "VM crashed too many times", sys) := by
  rw [advanceStartup.eq_def, hdead, hphase, if_pos (by simp)]
  split
  next => rfl
  next => rfl

theorem advanceStartup_caDead (halive : sys.vm.isDead sys.kernel = false)
    (hphase : startup.isWaitingCaPort = true)
    (hdead : sys.ca.isDead sys.kernel = true) :
    advanceStartup cfg startup sys env =
      .ok (if sys.ca.crashCount < 5 then .caStarting
        else .failed "CA crashed too many times", sys) := by
  rw [advanceStartup.eq_def, halive, hdead, hphase, if_neg (by simp),
    if_pos (by simp)]
  split
  next => rfl
  next => rfl

theorem advanceStartup_vmStarting (halive : sys.vm.isDead sys.kernel = false) :
    advanceStartup cfg .vmStarting sys env =
      match VmManager.start cfg sys.vm sys.kernel env.vmStart with
      | (vm, k, .ok ()) =>
          match k.now.plus
              (fromSecs (cfg.vsockProbeDelaySecs + cfg.vmBootTimeoutSecs)) with
          | none => .error k
          | some deadline =>
              .ok (.waitingVsock deadline k.now false, sys.set .vm vm k)
      | (vm, k, .error e) => .ok (.failed e, sys.set .vm vm k) := by
  rw [advanceStartup, halive, if_neg (by simp),
    if_neg (by simp [StartupPhase.isWaitingCaPort])]
  rfl

theorem advanceStartup_delay {deadline bootStart : Instant}
    (halive : sys.vm.isDead sys.kernel = false) :
    advanceStartup cfg (.waitingVsock deadline bootStart false) sys env =
      .ok (.waitingVsock deadline bootStart
        (bootStart.elapsed sys.kernel.now ≥ fromSecs cfg.vsockProbeDelaySecs),
        sys) := by
  rw [advanceStartup, halive, if_neg (by simp),
    if_neg (by simp [StartupPhase.isWaitingCaPort])]
  dsimp only
  rw [if_pos (by simp)]
  split
  next hover => rw [decide_eq_true hover]
  next hover => rw [decide_eq_false hover]

theorem advanceStartup_probeVsock {deadline bootStart : Instant}
    (halive : sys.vm.isDead sys.kernel = false) :
    advanceStartup cfg (.waitingVsock deadline bootStart true) sys env =
      if deadline < sys.kernel.now then .ok (.failed "vsock timeout", sys)
      else
        let k := VmManager.probeVsock sys.kernel env.vsockUp env.vsockTook
        if env.vsockUp then
          .ok (.caStarting,
            sys.set .vm (sys.vm.setState .ready k.now) (k.emit (.ready .vm)))
        else
          .ok (.waitingVsock deadline bootStart true,
            { sys with kernel := k }) := by
  rw [advanceStartup, halive, if_neg (by simp),
    if_neg (by simp [StartupPhase.isWaitingCaPort])]
  rfl

theorem advanceStartup_caStarting (halive : sys.vm.isDead sys.kernel = false) :
    advanceStartup cfg .caStarting sys env =
      match CaManager.start cfg sys.ca sys.kernel env.caStart with
      | (ca, k, .ok ()) =>
          match k.now.plus (fromSecs cfg.caReadyTimeoutSecs) with
          | none => .error k
          | some deadline => .ok (.waitingCaPort deadline, sys.set .ca ca k)
      | (ca, k, .error e) => .ok (.failed e, sys.set .ca ca k) := by
  rw [advanceStartup, halive, if_neg (by simp),
    if_neg (by simp [StartupPhase.isWaitingCaPort])]
  rfl

theorem advanceStartup_waitingCaPort {deadline : Instant}
    (hvm : sys.vm.isDead sys.kernel = false)
    (hca : sys.ca.isDead sys.kernel = false) :
    advanceStartup cfg (.waitingCaPort deadline) sys env =
      let k := CaManager.isPortReady sys.kernel env.portUp env.portTook
      if env.portUp then
        .ok (.complete,
          sys.set .ca (sys.ca.setState .ready k.now) (k.emit (.ready .ca)))
      else if deadline < k.now then .ok (.complete, { sys with kernel := k })
      else .ok (.waitingCaPort deadline, { sys with kernel := k }) := by
  rw [advanceStartup, hvm, hca, if_neg (by simp), if_neg (by simp)]
  rfl

end Phases

/-! ## What one call can do -/

/-- The `start` that a call makes in a phase, with the system's answers. -/
def StartupEnv.call (env : StartupEnv) : StartupPhase → Role → Option StartEnv
  | .vmStarting, .vm => some env.vmStart
  | .caStarting, .ca => some env.caStart
  | _, _ => none

/-- How long the machine waits for the child that it starts in a phase. -/
def StartupPhase.patience (cfg : Config) : StartupPhase → ℕ
  | vmStarting => fromSecs (cfg.vsockProbeDelaySecs + cfg.vmBootTimeoutSecs)
  | caStarting => fromSecs cfg.caReadyTimeoutSecs
  | _ => 0

/-- `Advances cfg sys env phase phase' sys'`: a call that finds the machine in
`phase` leaves it in `phase'`. -/
inductive Advances (cfg : Config) (sys : Sys) (env : StartupEnv) :
    StartupPhase → StartupPhase → Sys → Prop
  | final {phase : StartupPhase} (hfinal : phase.isFinal = true) :
      Advances cfg sys env phase phase sys
  | vmRestart {phase : StartupPhase} (hphase : phase.isFinal = false)
      (hdead : sys.vm.isDead sys.kernel = true) :
      Advances cfg sys env phase
        (if sys.vm.crashCount < 5 then .vmStarting
        else .failed "VM crashed too many times") sys
  | caRestart {phase : StartupPhase} (hphase : phase.isWaitingCaPort = true)
      (hdead : sys.ca.isDead sys.kernel = true) :
      Advances cfg sys env phase
        (if sys.ca.crashCount < 5 then .caStarting
        else .failed "CA crashed too many times") sys
  | vmStarted {m : Manager} {k : Kernel} {deadline : Instant}
      (hstart : Role.start cfg .vm sys.vm sys.kernel env.vmStart =
        (m, k, .ok ()))
      (hdeadline : k.now.plus
        (fromSecs (cfg.vsockProbeDelaySecs + cfg.vmBootTimeoutSecs)) =
          some deadline) :
      Advances cfg sys env .vmStarting (.waitingVsock deadline k.now false)
        (sys.set .vm m k)
  | vmNotStarted {m : Manager} {k : Kernel} {e : String}
      (hstart : Role.start cfg .vm sys.vm sys.kernel env.vmStart =
        (m, k, .error e)) :
      Advances cfg sys env .vmStarting (.failed e) (sys.set .vm m k)
  | delay {deadline bootStart : Instant} :
      Advances cfg sys env (.waitingVsock deadline bootStart false)
        (.waitingVsock deadline bootStart
          (bootStart.elapsed sys.kernel.now ≥
            fromSecs cfg.vsockProbeDelaySecs)) sys
  | vsockTimeout {deadline bootStart : Instant}
      (hlate : deadline < sys.kernel.now) :
      Advances cfg sys env (.waitingVsock deadline bootStart true)
        (.failed "vsock timeout") sys
  | vsockUp {deadline bootStart : Instant} (hintime : sys.kernel.now ≤ deadline)
      (hup : env.vsockUp = true) :
      Advances cfg sys env (.waitingVsock deadline bootStart true) .caStarting
        (sys.set .vm
          (sys.vm.setState .ready (sys.kernel.now + env.vsockTook))
          ((VmManager.probeVsock sys.kernel true env.vsockTook).emit
            (.ready .vm)))
  | vsockDown {deadline bootStart : Instant}
      (hintime : sys.kernel.now ≤ deadline) (hdown : env.vsockUp = false) :
      Advances cfg sys env (.waitingVsock deadline bootStart true)
        (.waitingVsock deadline bootStart true)
        { sys with
          kernel := VmManager.probeVsock sys.kernel false env.vsockTook }
  | caStarted {m : Manager} {k : Kernel} {deadline : Instant}
      (hstart : Role.start cfg .ca sys.ca sys.kernel env.caStart =
        (m, k, .ok ()))
      (hdeadline : k.now.plus (fromSecs cfg.caReadyTimeoutSecs) =
        some deadline) :
      Advances cfg sys env .caStarting (.waitingCaPort deadline)
        (sys.set .ca m k)
  | caNotStarted {m : Manager} {k : Kernel} {e : String}
      (hstart : Role.start cfg .ca sys.ca sys.kernel env.caStart =
        (m, k, .error e)) :
      Advances cfg sys env .caStarting (.failed e) (sys.set .ca m k)
  | portUp {deadline : Instant} (hup : env.portUp = true) :
      Advances cfg sys env (.waitingCaPort deadline) .complete
        (sys.set .ca
          (sys.ca.setState .ready (sys.kernel.now + env.portTook))
          ((CaManager.isPortReady sys.kernel true env.portTook).emit
            (.ready .ca)))
  | portTimeout {deadline : Instant} (hdown : env.portUp = false)
      (hlate : deadline < sys.kernel.now + env.portTook) :
      Advances cfg sys env (.waitingCaPort deadline) .complete
        { sys with
          kernel := CaManager.isPortReady sys.kernel false env.portTook }
  | portDown {deadline : Instant} (hdown : env.portUp = false)
      (hintime : sys.kernel.now + env.portTook ≤ deadline) :
      Advances cfg sys env (.waitingCaPort deadline) (.waitingCaPort deadline)
        { sys with
          kernel := CaManager.isPortReady sys.kernel false env.portTook }

section Calls

variable {cfg : Config} {phase phase' : StartupPhase} {sys sys' : Sys}
  {env : StartupEnv} {deadline bootStart : Instant}

theorem advances_probeVsock (halive : sys.vm.isDead sys.kernel = false)
    (h : advanceStartup cfg (.waitingVsock deadline bootStart true) sys env =
      .ok (phase', sys')) :
    Advances cfg sys env (.waitingVsock deadline bootStart true) phase' sys' := by
  rw [advanceStartup_probeVsock halive] at h
  split at h
  next hlate =>
    cases h
    exact .vsockTimeout hlate
  next hlate =>
    cases hup : env.vsockUp with
    | false =>
        rw [hup, if_neg (by simp)] at h
        cases h
        exact .vsockDown (Nat.le_of_not_lt hlate) hup
    | true =>
        rw [hup, if_pos rfl] at h
        cases h
        exact .vsockUp (Nat.le_of_not_lt hlate) hup

theorem advances_waitingCaPort (hvm : sys.vm.isDead sys.kernel = false)
    (hca : sys.ca.isDead sys.kernel = false)
    (h : advanceStartup cfg (.waitingCaPort deadline) sys env =
      .ok (phase', sys')) :
    Advances cfg sys env (.waitingCaPort deadline) phase' sys' := by
  rw [advanceStartup_waitingCaPort hvm hca] at h
  cases hup : env.portUp with
  | true =>
      rw [hup, if_pos rfl] at h
      cases h
      exact .portUp hup
  | false =>
      rw [hup, if_neg (by simp)] at h
      split at h
      next hlate =>
        cases h
        exact .portTimeout hup hlate
      next hlate =>
        cases h
        exact .portDown hup (Nat.le_of_not_lt hlate)

theorem advanceStartup_ok
    (h : advanceStartup cfg phase sys env = .ok (phase', sys')) :
    Advances cfg sys env phase phase' sys' := by
  cases hfinal : phase.isFinal with
  | true =>
      rw [advanceStartup_of_isFinal hfinal] at h
      cases h
      exact .final hfinal
  | false =>
  cases hvm : sys.vm.isDead sys.kernel with
  | true =>
      rw [advanceStartup_vmDead hfinal hvm] at h
      cases h
      exact .vmRestart hfinal hvm
  | false =>
  cases phase with
  | vmStarting =>
      rw [advanceStartup_vmStarting hvm] at h
      split at h
      next hstart =>
        split at h
        next => cases h
        next deadline hdeadline =>
          cases h
          exact .vmStarted hstart hdeadline
      next hstart =>
        cases h
        exact .vmNotStarted hstart
  | waitingVsock deadline bootStart delayDone =>
      cases delayDone with
      | false =>
          rw [advanceStartup_delay hvm] at h
          cases h
          exact .delay
      | true => exact advances_probeVsock hvm h
  | caStarting =>
      rw [advanceStartup_caStarting hvm] at h
      split at h
      next hstart =>
        split at h
        next => cases h
        next deadline hdeadline =>
          cases h
          exact .caStarted hstart hdeadline
      next hstart =>
        cases h
        exact .caNotStarted hstart
  | waitingCaPort deadline =>
      cases hca : sys.ca.isDead sys.kernel with
      | true =>
          rw [advanceStartup_caDead hvm rfl hca] at h
          cases h
          exact .caRestart rfl hca
      | false => exact advances_waitingCaPort hvm hca h
  | _ => cases hfinal

/-- The call panics only after a successful start, where the deadline
overflows. -/
theorem advanceStartup_error {k : Kernel}
    (h : advanceStartup cfg phase sys env = .error k) :
    ∃ r m env', env.call phase r = some env' ∧
      Role.start cfg r (sys.mgr r) sys.kernel env' = (m, k, .ok ()) ∧
      k.now.plus (phase.patience cfg) = none := by
  cases hfinal : phase.isFinal with
  | true =>
      rw [advanceStartup_of_isFinal hfinal] at h
      cases h
  | false =>
  cases hvm : sys.vm.isDead sys.kernel with
  | true =>
      rw [advanceStartup_vmDead hfinal hvm] at h
      cases h
  | false =>
  cases phase with
  | vmStarting =>
      rw [advanceStartup_vmStarting hvm] at h
      split at h
      next hstart =>
        split at h
        next hover =>
          cases h
          exact ⟨.vm, _, _, rfl, hstart, hover⟩
        next => cases h
      next => cases h
  | waitingVsock deadline bootStart delayDone =>
      cases delayDone with
      | false =>
          rw [advanceStartup_delay hvm] at h
          cases h
      | true =>
          rw [advanceStartup_probeVsock hvm] at h
          split at h
          next => cases h
          next =>
            dsimp only at h
            split at h <;> cases h
  | caStarting =>
      rw [advanceStartup_caStarting hvm] at h
      split at h
      next hstart =>
        split at h
        next hover =>
          cases h
          exact ⟨.ca, _, _, rfl, hstart, hover⟩
        next => cases h
      next => cases h
  | waitingCaPort deadline =>
      cases hca : sys.ca.isDead sys.kernel with
      | true =>
          rw [advanceStartup_caDead hvm rfl hca] at h
          cases h
      | false =>
          rw [advanceStartup_waitingCaPort hvm hca] at h
          dsimp only at h
          split at h
          next => cases h
          next => split at h <;> cases h
  | _ => cases hfinal

end Calls

/-- A call in one of the two starting phases calls `start`; it sets a deadline
when the start succeeds, and else the startup has failed. -/
theorem Advances.of_call {cfg : Config} {phase phase' : StartupPhase}
    {sys sys' : Sys} {env : StartupEnv} {r : Role} {env' : StartEnv}
    {m : Manager} {k : Kernel} {result : Except String Unit}
    (h : Advances cfg sys env phase phase' sys')
    (hvm : ¬ sys.vm.isDead sys.kernel = true)
    (hcall : env.call phase r = some env')
    (hstart : r.start cfg (sys.mgr r) sys.kernel env' = (m, k, result)) :
    sys' = sys.set r m k ∧
      (result = .ok () → (k.now.plus (phase.patience cfg)).isSome) ∧
      ∀ e, result = .error e → phase' = .failed e := by
  cases h with
  | vmRestart hphase hdead => exact absurd hdead hvm
  | vmStarted hstarted hdeadline =>
      cases r <;> cases hcall
      cases hstarted.symm.trans hstart
      exact ⟨rfl, fun _ => Option.isSome_iff_exists.mpr ⟨_, hdeadline⟩, nofun⟩
  | vmNotStarted hstarted =>
      cases r <;> cases hcall
      cases hstarted.symm.trans hstart
      exact ⟨rfl, nofun, fun e he => congrArg _ (Except.error.inj he)⟩
  | caStarted hstarted hdeadline =>
      cases r <;> cases hcall
      cases hstarted.symm.trans hstart
      exact ⟨rfl, fun _ => Option.isSome_iff_exists.mpr ⟨_, hdeadline⟩, nofun⟩
  | caNotStarted hstarted =>
      cases r <;> cases hcall
      cases hstarted.symm.trans hstart
      exact ⟨rfl, nofun, fun e he => congrArg _ (Except.error.inj he)⟩
  | final hfinal => cases phase <;> cases hfinal <;> cases hcall
  | caRestart hphase =>
      cases phase <;> cases hphase
      cases hcall
  | _ => cases hcall

end Teeproxyd

import Rollout.CommandLine.Execute
import Rollout.Proofs.Settings.Forms

/-!
# Accepted settings

Accepted settings keep the bounds of their fields: there is at least one try of everything, and a
redeployment has more listings than a first deployment. Pauses and the time for a request are not
negative; but they have no upper bound, so that infinity is let through as well. Settings that are
accepted can therefore be used when their pauses and the time for a request are finite, and
otherwise not.

- `Settings.Usable`: what a run needs of its settings.
- `Settings.Admitted`: what the fields let through.
- `Settings.form_ensures`: what the fields let through, **field by field**.
- `Settings.standard_usable`: the settings used where none are given can be used.
- `Settings.read_numbers`: all that is let through is accepted.
- `accepted_usable_iff`: **which accepted settings can be used**, also where the command line says
  otherwise.
-/

namespace Rollout

namespace Settings

/-- The pauses of a run. -/
def delays (settings : Settings) : List Binary64 :=
  [settings.pollInterval, settings.settle, settings.postDeploy, settings.probeRetry]

/-- Settings within their bounds, where a number is within its bound in the sense of `meets`. -/
structure Within (meets : (ℚ → Prop) → Binary64 → Prop) (settings : Settings) : Prop where
  initialPolls : 1 ≤ settings.initialPolls
  redeployPolls : settings.initialPolls < settings.redeployPolls
  probeAttempts : 1 ≤ settings.probeAttempts
  recovery : 1 ≤ settings.recovery
  clusterTimeout : 1 ≤ settings.clusterTimeout
  delays : ∀ delay ∈ settings.delays, meets (0 ≤ ·) delay
  requestTimeout : meets (0 < ·) settings.requestTimeout

/-- Settings a run can use: every number has a value, and it is within its bound. -/
def Usable (settings : Settings) : Prop :=
  settings.Within Binary64.Meets

/-- Settings the fields let through: every number is within its bound or infinite. -/
def Admitted (settings : Settings) : Prop :=
  settings.Within Binary64.Passes

/-- Of the settings that are let through, those can be used whose numbers are finite. -/
theorem Admitted.usable_iff {settings : Settings} (h : settings.Admitted) :
    settings.Usable ↔ ∀ x ∈ settings.requestTimeout :: settings.delays, x.isFinite = true := by
  rw [List.forall_mem_cons]
  constructor
  · intro husable
    exact ⟨h.requestTimeout.meets_iff.mp husable.requestTimeout, fun delay hdelay =>
      (h.delays delay hdelay).meets_iff.mp (husable.delays delay hdelay)⟩
  · rintro ⟨htimeout, hdelays⟩
    exact { h with
      requestTimeout := h.requestTimeout.meets_iff.mpr htimeout
      delays := fun delay hdelay =>
        (h.delays delay hdelay).meets_iff.mpr (hdelays delay hdelay) }

/-! ## The fields -/

section Fields

variable {given : Members} {name : String}

theorem number_ensures {absent least : Int} (h : least ≤ absent) :
    (Form.optional given name absent (integerFrom least)).Ensures (least ≤ ·) :=
  Form.optional_ensures h fun hread => (integerFrom_eq_ok_iff.mp hread).2

theorem number_gives {absent least n : Int} (hgiven : given.lookup name = some (.num (.int n)))
    (h : least ≤ n) : (Form.optional given name absent (integerFrom least)).Gives n :=
  Form.optional_gives_of_given hgiven (integerFrom_eq_ok_iff.mpr ⟨rfl, h⟩)

theorem delay_ensures {absent : Binary64}
    (h : (Binary64.zero.less absent || Binary64.zero.same absent) = true) :
    (Form.optional given name absent realFromZero).Ensures (Binary64.Passes (0 ≤ ·)) :=
  Form.optional_ensures (Binary64.fromZero_iff.mp h) fun hread =>
    (realFromZero_eq_ok_iff.mp hread).2

theorem delay_gives {absent x : Binary64} (hgiven : given.lookup name = some (.num (.real x)))
    (h : x.Passes (0 ≤ ·)) : (Form.optional given name absent realFromZero).Gives x :=
  Form.optional_gives_of_given hgiven (realFromZero_eq_ok_iff.mpr ⟨rfl, h⟩)

theorem timeout_ensures {absent : Binary64}
    (h : Binary64.zero.less absent = true) :
    (Form.optional given name absent realAboveZero).Ensures (Binary64.Passes (0 < ·)) :=
  Form.optional_ensures (Binary64.aboveZero_iff.mp h) fun hread =>
    (realAboveZero_eq_ok_iff.mp hread).2

theorem timeout_gives {absent x : Binary64} (hgiven : given.lookup name = some (.num (.real x)))
    (h : x.Passes (0 < ·)) : (Form.optional given name absent realAboveZero).Gives x :=
  Form.optional_gives_of_given hgiven (realAboveZero_eq_ok_iff.mpr ⟨rfl, h⟩)

/-- **Field by field**, what is read or used for its absence is within the bounds. -/
theorem form_ensures (given : Members) : (form given).Ensures fun settings =>
    settings.initialPolls < settings.redeployPolls → settings.Admitted := by
  unfold form
  refine Form.optional_collects.bind fun workdir => ?_
  refine Form.optional_collects.bind fun space => ?_
  refine Form.optional_collects.bind fun clusterBinary => ?_
  refine Form.optional_collects.bind fun engineBinary => ?_
  refine Form.optional_collects.bind fun versionSource => ?_
  refine Form.optional_collects.bind fun template => ?_
  refine (delay_ensures (by decide +kernel)).bind fun pollInterval => ?_
  refine (number_ensures (by decide)).bind fun initialPolls => ?_
  refine (number_ensures (by decide)).bind fun redeployPolls => ?_
  refine (delay_ensures (by decide +kernel)).bind fun settle => ?_
  refine (delay_ensures (by decide +kernel)).bind fun postDeploy => ?_
  refine (timeout_ensures (by decide +kernel)).bind fun requestTimeout => ?_
  refine (number_ensures (by decide)).bind fun probeAttempts => ?_
  refine (delay_ensures (by decide +kernel)).bind fun probeRetry => ?_
  refine (number_ensures (by decide)).bind fun recovery => ?_
  refine (number_ensures (by decide)).bind fun clusterTimeout => ?_
  refine Form.ensures_pure ?_
  intro hcluster hrecovery hretry hattempts htimeout hpost hsettle _ hinitial hpoll _ _ _ _ _ _
    hexceeds
  exact {
    initialPolls := hinitial
    redeployPolls := hexceeds
    probeAttempts := hattempts
    recovery := hrecovery
    clusterTimeout := hcluster
    delays := by simpa [delays] using ⟨hpoll, hsettle, hpost, hretry⟩
    requestTimeout := htimeout }

end Fields

/-! ## Acceptance -/

theorem read_eq_ok_iff {given : Members} {settings : Settings} :
    read given = .ok settings ↔
      (form given).Gives settings ∧ settings.initialPolls < settings.redeployPolls := by
  rw [← Form.complete_eq_ok_iff, ← Int.not_le]
  exact refusing_eq_ok_iff (fun settings : Settings =>
    settings.redeployPolls ≤ settings.initialPolls) _

theorem ofEnvironment_eq_ok_iff {environment : List (String × String)} {given : Members}
    {settings : Settings} :
    ofEnvironment environment given = .ok settings ↔
      read (given ++ environment.reverse.filterMap ofVariable?) = .ok settings := by
  unfold ofEnvironment
  cases read (given ++ environment.reverse.filterMap ofVariable?) with
  | ok accepted => simp only [Except.ok.injEq]
  | error errors => exact iff_of_false nofun nofun

theorem admitted_of_read {given : Members} {settings : Settings}
    (h : read given = .ok settings) : settings.Admitted := by
  obtain ⟨hgives, hexceeds⟩ := read_eq_ok_iff.mp h
  exact (form_ensures given).holds hgives hexceeds

/-- The settings used where none are given pass their own checks and can be used. -/
theorem standard_usable : standard.Usable := by
  have hread : read [] = .ok standard := by decide +kernel
  exact (admitted_of_read hread).usable_iff.mpr (by decide +kernel)

/-- The members that give the numbers of some settings. -/
def numbers (settings : Settings) : Members :=
  [("poll_interval_seconds", .num (.real settings.pollInterval)),
    ("initial_max_polls", .num (.int settings.initialPolls)),
    ("redeploy_max_polls", .num (.int settings.redeployPolls)),
    ("settle_seconds", .num (.real settings.settle)),
    ("post_deploy_seconds", .num (.real settings.postDeploy)),
    ("http_timeout_seconds", .num (.real settings.requestTimeout)),
    ("probe_attempts", .num (.int settings.probeAttempts)),
    ("probe_retry_seconds", .num (.real settings.probeRetry)),
    ("recovery_seconds", .num (.int settings.recovery)),
    ("kubectl_timeout", .num (.int settings.clusterTimeout))]

/-- The settings with the numbers of others. -/
def withNumbers (settings others : Settings) : Settings :=
  { others with
    workdir := settings.workdir
    space := settings.space
    clusterBinary := settings.clusterBinary
    engineBinary := settings.engineBinary
    versionSource := settings.versionSource
    template := settings.template }

/-- **All that is let through is accepted**: no combination of numbers within the bounds is refused
as a whole. -/
theorem read_numbers {settings : Settings} (h : settings.Admitted) :
    read settings.numbers = .ok (standard.withNumbers settings) := by
  refine read_eq_ok_iff.mpr ⟨?_, h.redeployPolls⟩
  have hredeploy : 1 ≤ settings.redeployPolls := h.initialPolls.trans h.redeployPolls.le
  obtain ⟨hpoll, hsettle, hpost, hretry⟩ : _ ∧ _ ∧ _ ∧ _ := by
    simpa [delays] using h.delays
  unfold form
  refine (Form.optional_gives_of_absent rfl).bind ?_
  refine (Form.optional_gives_of_absent rfl).bind ?_
  refine (Form.optional_gives_of_absent rfl).bind ?_
  refine (Form.optional_gives_of_absent rfl).bind ?_
  refine (Form.optional_gives_of_absent rfl).bind ?_
  refine (Form.optional_gives_of_absent rfl).bind ?_
  refine (delay_gives rfl hpoll).bind ?_
  refine (number_gives rfl h.initialPolls).bind ?_
  refine (number_gives rfl hredeploy).bind ?_
  refine (delay_gives rfl hsettle).bind ?_
  refine (delay_gives rfl hpost).bind ?_
  refine (timeout_gives rfl h.requestTimeout).bind ?_
  refine (number_gives rfl h.probeAttempts).bind ?_
  refine (delay_gives rfl hretry).bind ?_
  refine (number_gives rfl h.recovery).bind ?_
  refine (number_gives rfl h.clusterTimeout).bind ?_
  exact Form.gives_pure _

end Settings

/-! ## Use -/

section Use

variable {settings : Settings}

/-- What the command line says instead has no bounds. -/
theorem overridden_within {meets : (ℚ → Prop) → Binary64 → Prop} (space : Option String)
    (workdir : Option Path) (h : settings.Within meets) :
    (overridden space workdir settings).Within meets :=
  { h with }

/-- Accepted settings, with what the command line says instead if anything, keep their bounds; and
they can be used just when the pauses and the time for a request are finite. -/
theorem accepted_usable_iff {environment : List (String × String)} {given : Members}
    (h : Settings.ofEnvironment environment given = .ok settings) (space : Option String)
    (workdir : Option Path) :
    (overridden space workdir settings).Admitted ∧
      ((overridden space workdir settings).Usable ↔
        ∀ x ∈ settings.requestTimeout :: settings.delays, x.isFinite = true) := by
  have hadmitted : (overridden space workdir settings).Admitted :=
    overridden_within space workdir
      (Settings.admitted_of_read (Settings.ofEnvironment_eq_ok_iff.mp h))
  exact ⟨hadmitted, hadmitted.usable_iff⟩

/-- Settings where the pause between listings never ends. -/
def endlessInterval : Settings :=
  { Settings.standard with pollInterval := .infinite false }

theorem accepted_usable_iff_endless :
    Settings.ofEnvironment [("BOOSTER_RT_POLL_INTERVAL_SECONDS", "inf")] [] = .ok endlessInterval ∧
      ¬ (overridden none none endlessInterval).Usable := by
  have haccepted : Settings.ofEnvironment [("BOOSTER_RT_POLL_INTERVAL_SECONDS", "inf")] []
      = .ok endlessInterval := Settings.ofEnvironment_eq_ok_iff.mpr (by decide +kernel)
  refine ⟨haccepted, fun husable => ?_⟩
  have hfinite := (accepted_usable_iff haccepted none none).2.mp husable
  have hinterval := hfinite endlessInterval.pollInterval (by simp [Settings.delays])
  cases hinterval

end Use

end Rollout

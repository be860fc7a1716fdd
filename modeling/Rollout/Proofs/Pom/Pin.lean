import Mathlib.Data.List.Forall2
import Rollout.Proofs.Pom.OnDisk
import Rollout.Proofs.Pom.Outline

/-!
# Pinning the deployment plugin

What a pin does to a project, said on its outline: first the deployment plugin is declared, unless a
listed profile declares it; then the version is set where it takes effect.

- `Declares`: the outline before and after the declaration.
- `PinsFirst`, `PinsProfile`, `Pins`: the outline before and after the version is set.
- `outline_pin`: the outline of a pinned project, computed.
- `pin_declares_then_pins`: **the pin does just this**, never fails, and leaves a profile that
  declares the plugin.

Both relations speak about all build blocks and all lists of a project. What they do not mention
stays as it is: entries in other lists, ids, keys and executions.
-/

namespace Rollout.Pom

open Xml

/-! ## What is declared -/

/-- The declaration of the deployment plugin: no version, and one execution for each goal. -/
def deployEntry : PluginEntry :=
  ⟨deployPlugin, none, [(some "resource", ["resource"]), (some "build", ["build"])]⟩

/-- A profile with nothing but a declaration of the deployment plugin. -/
def deployOutline : ProfileOutline := ⟨some deployProfile, [[[deployEntry]]]⟩

/-- Whether a profile declares the deployment plugin. -/
def ProfileOutline.hosts (profile : ProfileOutline) : Bool :=
  declares deployPlugin profile.builds

/-- The deployment plugin is declared in a listed profile, or it is added once: to the first profile
with the id of the deploying profile, or else in a new profile behind all others. -/
inductive Declares : Outline → Outline → Prop
  | hosted {outline : Outline} (host : ∃ profile ∈ outline.listed, profile.hosts = true) :
      Declares outline outline
  | added {builds : List BuildOutline} {front back : List ProfileOutline} {profile : ProfileOutline}
      {lists : List (List ProfileOutline)}
      (unhosted : ∀ other ∈ front ++ profile :: back, other.hosts = false)
      (first : ∀ other ∈ front, other.id ≠ some deployProfile)
      (id : profile.id = some deployProfile) :
      Declares ⟨builds, (front ++ profile :: back) :: lists⟩
        ⟨builds, (front ++ profile.change (addEntry deployEntry) :: back) :: lists⟩
  | created {outline : Outline} (unhosted : ∀ other ∈ outline.listed, other.hosts = false)
      (absent : ∀ other ∈ outline.listed, other.id ≠ some deployProfile) :
      Declares outline { outline with profiles := addProfile deployOutline outline.profiles }

/-! ## What is pinned -/

/-- The first visible entry of the deployment plugin has its version set. -/
inductive PinsFirst (value : String) : List BuildOutline → List BuildOutline → Prop
  | first {front back : List PluginEntry} {entry : PluginEntry} {lists : BuildOutline}
      {builds : List BuildOutline} (before : ∀ other ∈ front, other.key ≠ deployPlugin)
      (key : entry.key = deployPlugin) :
      PinsFirst value (((front ++ entry :: back) :: lists) :: builds)
        (((front ++ entry.pinned value :: back) :: lists) :: builds)

/-- A profile that declares the deployment plugin has it pinned; another one stays as it is. -/
inductive PinsProfile (value : String) : ProfileOutline → ProfileOutline → Prop
  | hosting {id : Option String} {before after : List BuildOutline}
      (pins : PinsFirst value before after) : PinsProfile value ⟨id, before⟩ ⟨id, after⟩
  | other {profile : ProfileOutline} (unhosted : profile.hosts = false) :
      PinsProfile value profile profile

/-- The version is set in the build block of the project when that declares the deployment plugin,
and otherwise in every listed profile that does. -/
inductive Pins (value : String) : Outline → Outline → Prop
  | project {before after : List BuildOutline} {lists : List (List ProfileOutline)}
      (pins : PinsFirst value before after) : Pins value ⟨before, lists⟩ ⟨after, lists⟩
  | profiles {builds : List BuildOutline} {before after : List ProfileOutline}
      {lists : List (List ProfileOutline)} (undeclared : declares deployPlugin builds = false)
      (pins : List.Forall₂ (PinsProfile value) before after) :
      Pins value ⟨builds, before :: lists⟩ ⟨builds, after :: lists⟩

/-! ## Setting a version -/

/-- The build blocks with the visible deployment plugin pinned. -/
def pinBuilds (value : String) : List BuildOutline → List BuildOutline :=
  updateEntry deployPlugin (PluginEntry.pinned value)

theorem pinsFirst_pinBuilds {value : String} {builds : List BuildOutline}
    (h : declares deployPlugin builds = true) :
    PinsFirst value builds (pinBuilds value builds) := by
  match builds, h with
  | (entries :: lists) :: builds, h =>
    obtain ⟨front, entry, back, rfl, hfront, hkey⟩ := exists_first h
    have hpin : pinBuilds value (((front ++ entry :: back) :: lists) :: builds)
        = ((front ++ entry.pinned value :: back) :: lists) :: builds := by
      rw [pinBuilds, updateEntry, updateFirst_split hfront hkey]
    rw [hpin]
    exact .first (fun other ho => ne_of_beq_false (hfront other ho)) (eq_of_beq hkey)

theorem declares_of_pinsFirst {value : String} {before after : List BuildOutline}
    (h : PinsFirst value before after) : declares deployPlugin after = true := by
  cases h with
  | first _ hkey =>
    exact List.any_eq_true.mpr
      ⟨_, List.mem_append_right _ (List.mem_cons_self ..), beq_iff_eq.mpr hkey⟩

/-- A pinned entry keeps its key, so that lookups still find it. -/
theorem declares_pinBuilds (value : String) (builds : List BuildOutline) :
    declares deployPlugin (pinBuilds value builds) = declares deployPlugin builds := by
  cases h : declares deployPlugin builds with
  | false => rw [pinBuilds, updateEntry_of_not_declares h, h]
  | true => exact declares_of_pinsFirst (pinsFirst_pinBuilds h)

/-- An added declaration is found by lookups. -/
theorem declares_addEntry (builds : List BuildOutline) :
    declares deployPlugin (addEntry deployEntry builds) = true := by
  match builds with
  | [] => rfl
  | [] :: _ => rfl
  | (entries :: lists) :: builds =>
    exact List.any_eq_true.mpr ⟨deployEntry, List.mem_append_right _ (List.mem_cons_self ..), rfl⟩

/-! ## The outline of a pinned project -/

/-- The outline with the deployment plugin declared in the deploying profile. -/
def Outline.withHost (outline : Outline) : Outline :=
  let prepared :=
    if outline.listed.any (fun profile => profile.id == some deployProfile) then outline
    else { outline with profiles := addProfile ⟨some deployProfile, []⟩ outline.profiles }
  prepared.changeListed
    (updateFirst (fun profile => profile.id == some deployProfile)
      (ProfileOutline.change (addEntry deployEntry)))

/-- The outline with the deployment plugin declared, unless a listed profile declares it. -/
def Outline.declared (outline : Outline) : Outline :=
  if outline.listed.any ProfileOutline.hosts then outline else outline.withHost

/-- The outline with the version of the deployment plugin set where it takes effect. -/
def Outline.pinned (value : String) (outline : Outline) : Outline :=
  if declares deployPlugin outline.builds then
    { outline with builds := pinBuilds value outline.builds }
  else outline.changeListed (List.map (ProfileOutline.change (pinBuilds value)))

theorem hosting_isEmpty (project : Node) :
    (hosting deployPlugin project).isEmpty
      = !(outline project).listed.any ProfileOutline.hosts := by
  have hhost : ∀ profile, hostsPlugin deployPlugin profile = (profileOutline profile).hosts :=
    fun profile => isSome_pluginOf? deployPlugin profile
  rw [← map_profiles, List.any_map]
  unfold hosting
  induction profiles project with
  | nil => rfl
  | cons profile profiles ih =>
    cases h : hostsPlugin deployPlugin profile with
    | true => simp [h, ← hhost]
    | false =>
      simp only [List.filter_cons, h, List.any_cons, Function.comp, ← hhost]
      simpa using ih

theorem isSome_profileOf? (id : String) (project : Node) :
    (profileOf? id project).isSome
      = (outline project).listed.any fun profile => profile.id == some id := by
  rw [← map_profiles, List.any_map]
  exact List.isSome_find?

/-- The declaration that is added, once it is indented. -/
theorem entryOf_deployDeclaration (style : Style) (depth : Nat) :
    entryOf ((deployDeclaration style).indented style.indent depth) = deployEntry := by
  have hgroup : Text.strip "io.fabric8" = "io.fabric8" := by decide
  have hartifact : Text.strip "fabric8-maven-plugin" = "fabric8-maven-plugin" := by decide
  have hresource : Text.strip "resource" = "resource" := by decide
  have hbuild : Text.strip "build" = "build" := by decide
  have hnonEmpty : nonEmpty (some "io.fabric8") = some "io.fabric8" := by decide
  simp [deployEntry, entryOf, pluginKey, childText, executionsOf, goalsOf, itemsOf, Node.child?,
    Node.childrenNamed, deployDeclaration, deployExecutions, Style.newElement, Style.newTextElement,
    Node.element, Node.indented, indentedAll, deployPlugin, Node.isNamed, Node.name?, Label.name?,
    Style.qualified, hgroup, hartifact, hresource, hbuild, hnonEmpty]

theorem outline_declareHost (style : Style) (project : Node) :
    outline (declareHost style project) = (outline project).withHost := by
  have hadd : ∀ profile, profileOutline (insertPlugin (deployDeclaration style) style profile)
      = (profileOutline profile).change (addEntry deployEntry) := fun profile => by
    rw [profileOutline_insertPlugin rfl, entryOf_deployDeclaration]
  have hid : Text.strip deployProfile = deployProfile := by decide
  -- a profile that is missing is inserted, so that the change always finds one
  have hprepared : outline (if (profileOf? deployProfile project).isSome then project
      else insertProfile deployProfile style project)
      = if (outline project).listed.any (fun profile => profile.id == some deployProfile)
        then outline project
        else { outline project with
          profiles := addProfile ⟨some deployProfile, []⟩ (outline project).profiles } := by
    rw [isSome_profileOf?]
    split
    · rfl
    · rw [outline_insertProfile, hid]
  unfold Outline.withHost
  rw [← hprepared]
  exact @outline_changeProfile (fun profile => profileId profile == some deployProfile)
    (fun profile => profile.id == some deployProfile) _ _ (inPlace_insertPlugin ..) (fun _ => rfl)
    hadd _

/-- **The outline of a pinned project.** -/
theorem outline_pin {value : String} (stripped : Text.strip value = value) (style : Style)
    (project : Node) :
    outline (pin value style project) = (outline project).declared.pinned value := by
  have hset : ∀ depth plugin, entryOf (setVersion value style depth plugin)
      = (entryOf plugin).pinned value := fun depth plugin => by
    rw [entryOf_setVersion, stripped]
  have hprofile : ∀ profile, profileOutline (changePlugin deployPlugin (setVersion value style 5)
      profile) = (profileOutline profile).change (pinBuilds value) :=
    profileOutline_changePlugin (inPlace_setVersion ..) (hset 5)
  have hdeclared : outline (if (hosting deployPlugin project).isEmpty then declareHost style project
      else project) = (outline project).declared := by
    rw [hosting_isEmpty]
    unfold Outline.declared
    cases (outline project).listed.any ProfileOutline.hosts with
    | true => rfl
    | false => exact outline_declareHost style project
  unfold pin Outline.pinned
  rw [← hdeclared]
  -- from here on the declared project is any project
  generalize (if (hosting deployPlugin project).isEmpty then declareHost style project
    else project) = hosted
  have htop : (Site.project.plugin? deployPlugin hosted).isSome
      = declares deployPlugin (outline hosted).builds := isSome_pluginOf? deployPlugin hosted
  show outline (if (Site.project.plugin? deployPlugin hosted).isSome then _ else _) = _
  rw [htop]
  split
  · exact outline_changePlugin (inPlace_setVersion ..) (hset 3) hosted
  · exact outline_changeProfiles (inPlace_changePlugin ..) hprofile hosted

/-! ## The declaration and the version, as relations -/

theorem addProfile_eq (profile : ProfileOutline) (outline : Outline) :
    addProfile profile outline.profiles
      = (outline.listed ++ [profile]) :: outline.profiles.drop 1 := by
  obtain ⟨builds, lists⟩ := outline
  cases lists <;> rfl

/-- An outline that lists profiles has a first list. -/
theorem exists_eq_of_listed {outline : Outline} {profiles : List ProfileOutline}
    (h : outline.listed = profiles) (hne : profiles ≠ []) :
    ∃ builds lists, outline = ⟨builds, profiles :: lists⟩ := by
  obtain ⟨builds, lists⟩ := outline
  cases lists with
  | nil => exact absurd h.symm hne
  | cons first lists =>
    obtain rfl : first = profiles := h
    exact ⟨builds, lists, rfl⟩

/-- The declaration is one of the three. -/
theorem declares_declared (outline : Outline) : Declares outline outline.declared := by
  unfold Outline.declared
  cases hhosts : outline.listed.any ProfileOutline.hosts with
  | true =>
    obtain ⟨profile, hmem, hhost⟩ := List.any_eq_true.mp hhosts
    exact .hosted ⟨profile, hmem, hhost⟩
  | false =>
    have unhosted : ∀ other ∈ outline.listed, other.hosts = false := fun other ho =>
      Bool.eq_false_iff.mpr (List.any_eq_false.mp hhosts other ho)
    show Declares outline outline.withHost
    unfold Outline.withHost
    cases hid : outline.listed.any fun profile => profile.id == some deployProfile with
    | true =>
      obtain ⟨front, profile, back, hsplit, hfront, hprofile⟩ := exists_first hid
      obtain ⟨builds, lists, rfl⟩ := exists_eq_of_listed hsplit (by simp)
      rw [if_pos rfl]
      show Declares _ ⟨builds, updateFirst _ _ (front ++ profile :: back) :: lists⟩
      rw [updateFirst_split hfront hprofile]
      exact .added unhosted (fun other ho => ne_of_beq_false (hfront other ho))
        (eq_of_beq hprofile)
    | false =>
      -- no listed profile has the id, so the change reaches the new one
      have absent : ∀ other ∈ outline.listed, (other.id == some deployProfile) = false :=
        fun other ho => Bool.eq_false_iff.mpr (List.any_eq_false.mp hid other ho)
      have hcreated : ({ outline with
            profiles := addProfile ⟨some deployProfile, []⟩ outline.profiles } :
              Outline).changeListed
          (updateFirst (fun profile => profile.id == some deployProfile)
            (ProfileOutline.change (addEntry deployEntry)))
          = { outline with profiles := addProfile deployOutline outline.profiles } := by
        unfold Outline.changeListed
        rw [addProfile_eq, addProfile_eq, List.modifyHead_cons, updateFirst_append absent]
        rfl
      rw [if_neg Bool.false_ne_true, hcreated]
      exact .created unhosted fun other ho => ne_of_beq_false (absent other ho)

/-- After the declaration a listed profile declares the deployment plugin. -/
theorem exists_host_of_declares {before after : Outline} (h : Declares before after) :
    ∃ profile ∈ after.listed, profile.hosts = true := by
  cases h with
  | hosted host => exact host
  | added _ _ _ =>
    exact ⟨_, List.mem_append_right _ (List.mem_cons_self ..), declares_addEntry _⟩
  | created _ _ =>
    refine ⟨deployOutline, ?_, by decide⟩
    show deployOutline ∈ (addProfile deployOutline before.profiles).headD []
    rw [addProfile_eq]
    exact List.mem_append_right _ (List.mem_cons_self ..)

theorem pinsProfile_change (value : String) (profile : ProfileOutline) :
    PinsProfile value profile (profile.change (pinBuilds value)) := by
  obtain ⟨id, builds⟩ := profile
  cases h : declares deployPlugin builds with
  | true => exact .hosting (pinsFirst_pinBuilds h)
  | false =>
    have hsame : (ProfileOutline.mk id builds).change (pinBuilds value) = ⟨id, builds⟩ :=
      congrArg (ProfileOutline.mk id) (updateEntry_of_not_declares h)
    rw [hsame]
    exact .other h

/-- Setting the version pins the project, or else the profiles. -/
theorem pins_pinned (value : String) {outline : Outline}
    (host : ∃ profile ∈ outline.listed, profile.hosts = true) :
    Pins value outline (outline.pinned value) := by
  unfold Outline.pinned
  split
  case isTrue h => exact .project (pinsFirst_pinBuilds h)
  case isFalse h =>
    -- the host is listed, so the outline has a first list of profiles
    obtain ⟨profile, hmem, -⟩ := host
    generalize hlisted : outline.listed = profiles at hmem
    obtain ⟨builds, lists, rfl⟩ := exists_eq_of_listed hlisted (List.ne_nil_of_mem hmem)
    refine .profiles (Bool.eq_false_iff.mpr h) ?_
    rw [List.forall₂_map_right_iff, List.forall₂_same]
    exact fun profile _ => pinsProfile_change value profile

/-- A pin leaves the profiles that declare the deployment plugin. -/
theorem hosts_pinned (value : String) {outline : Outline}
    (host : ∃ profile ∈ outline.listed, profile.hosts = true) :
    (outline.pinned value).listed.any ProfileOutline.hosts = true := by
  obtain ⟨profile, hmem, hhost⟩ := host
  unfold Outline.pinned
  split
  · exact List.any_eq_true.mpr ⟨profile, hmem, hhost⟩
  · generalize hlisted : outline.listed = profiles at hmem
    obtain ⟨builds, lists, rfl⟩ := exists_eq_of_listed hlisted (List.ne_nil_of_mem hmem)
    exact List.any_eq_true.mpr ⟨_, List.mem_map_of_mem hmem,
      (declares_pinBuilds value profile.builds).trans hhost⟩

/-! ## Main statement -/

/-- **A pin declares and pins the deployment plugin, and does nothing else.** The declaration comes
first, unless a listed profile has one; then the version, read back as it was given, is set where it
takes effect; and a profile declares the plugin. The pin of a file that can be read succeeds and
writes the project so pinned. -/
theorem pin_declares_then_pins {value : String} (stripped : Text.strip value = value)
    (style : Style) (project : Node) :
    (∃ declared, Declares (outline project) declared ∧
      Pins value declared (outline (pin value style project))) ∧
    hosting deployPlugin (pin value style project) ≠ [] ∧
    ∀ (pom source : Path) (disk : Disk) (descriptor : Descriptor),
      readVersion source disk = .ok value disk → readDescriptor pom disk = .ok descriptor disk →
      ∃ place, pinFile pom source disk
        = .ok value
            (disk.holding place ((descriptor.edit (pin value)).serialize disk.register)) := by
  have hdeclared := declares_declared (outline project)
  have hhost := exists_host_of_declares hdeclared
  have houtline := outline_pin stripped style project
  refine ⟨⟨_, hdeclared, ?_⟩, ?_, fun pom source disk descriptor hv hd => pinFile_run hv hd⟩
  · rw [houtline]
    exact pins_pinned value hhost
  · intro hnil
    have hempty := hosting_isEmpty (pin value style project)
    rw [hnil, houtline, hosts_pinned value hhost] at hempty
    exact absurd hempty (by decide)

/-! ## A project without plugins -/

/-- A place for a project. -/
def barePom : Path := ⟨.working, ["pom.xml"]⟩

/-- A disk with one project that declares a version and no plugin. -/
def bareDisk : Disk :=
  ⟨⟨[(barePom, .file (.text "<project><version>3.5</version></project>"))]⟩, Prefixes.standard⟩

/-- That project as it is read. -/
def bareProject : Descriptor :=
  ⟨Node.element ⟨"", "project"⟩ none [Node.element ⟨"", "version"⟩ (some "3.5") []],
    ⟨"", defaultIndent⟩, "", ""⟩

set_option maxRecDepth 4000 in
/-- The project gets a profile that declares the plugin, pinned to the version of the project. -/
theorem pin_declares_then_pins_bare :
    Text.strip "3.5" = "3.5" ∧
    (∃ declared, Declares (outline bareProject.root) declared ∧
      Pins "3.5" declared (outline (pin "3.5" bareProject.style bareProject.root))) ∧
    readVersion barePom bareDisk = .ok "3.5" bareDisk ∧
    readDescriptor barePom bareDisk = .ok bareProject bareDisk ∧
    ∃ place, pinFile barePom barePom bareDisk = .ok "3.5" (bareDisk.holding place
      ((bareProject.edit (pin "3.5")).serialize bareDisk.register)) := by
  have hstrip : Text.strip "3.5" = "3.5" := by decide
  have hversion : readVersion barePom bareDisk = .ok "3.5" bareDisk := rfl
  have hread : readDescriptor barePom bareDisk = .ok bareProject bareDisk := rfl
  obtain ⟨hpins, -, hrun⟩ := pin_declares_then_pins hstrip bareProject.style bareProject.root
  exact ⟨hstrip, hpins, hversion, hread, hrun barePom barePom bareDisk bareProject hversion hread⟩

end Rollout.Pom

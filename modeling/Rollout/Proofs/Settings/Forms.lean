import Rollout.Proofs.Number.Values
import Rollout.Settings.Form

/-!
# Forms and what their values meet

A form adds the problems of its fields to those found before, and the values it reads do not
depend on them. So a form without problems has none in any of its fields, and what holds of every
value a field accepts holds of the fields of an accepted form.

- `Form.Gives`: a form gives a value without problems.
- `Form.Collects`: **problems are only added**, and do not change what is read.
- `Form.Ensures`: what holds of every value a form gives.
- `integerFrom_eq_ok_iff`, `realFromZero_eq_ok_iff`, `realAboveZero_eq_ok_iff`: what bounded fields
  may hold.
-/

namespace Rollout

namespace Form

variable {α β : Type}

/-- A form gives a value without problems. -/
def Gives (form : Form α) (a : α) : Prop :=
  form.run [] = (a, [])

theorem complete_eq_ok_iff {form : Form α} {a : α} : form.complete = .ok a ↔ form.Gives a := by
  unfold complete Gives
  rcases form.run [] with ⟨b, _ | ⟨error, errors⟩⟩
  · change Except.ok b = Except.ok a ↔ _
    rw [Except.ok.injEq, Prod.mk.injEq, and_iff_left rfl]
  · exact iff_of_false nofun nofun

/-! ## Collecting problems -/

/-- **Problems are only added**, and those found before do not change what is read. -/
def Collects (form : Form α) : Prop :=
  ∀ found, form.run found = ((form.run []).1, found ++ (form.run []).2)

theorem collects_pure (a : α) : Collects (pure a : Form α) := by
  intro found
  exact congrArg (Prod.mk a) (List.append_nil found).symm

theorem collects_keep (name : String) (standIn : α) (value : Checked α) :
    (keep name standIn value).Collects := by
  cases value with
  | ok a => exact collects_pure a
  | error errors => exact fun _ => rfl

theorem run_bind (form : Form α) (next : α → Form β) (found : List FieldError) :
    (form >>= next).run found = (next (form.run found).1).run (form.run found).2 := rfl

theorem Collects.bind {form : Form α} {next : α → Form β} (hform : form.Collects)
    (hnext : ∀ a, (next a).Collects) : (form >>= next).Collects := by
  intro found
  rw [run_bind, run_bind, hform found, hnext _ (found ++ _), hnext _ (form.run []).2,
    List.append_assoc]

/-! ## Giving a value -/

theorem gives_pure (a : α) : Gives (pure a : Form α) a := rfl

theorem Gives.bind {form : Form α} {next : α → Form β} {a : α} {b : β} (hform : form.Gives a)
    (hnext : (next a).Gives b) : (form >>= next).Gives b := by
  unfold Gives
  rw [run_bind, hform]
  exact hnext

/-- A form without problems has none in its parts. -/
theorem gives_bind_iff {form : Form α} {next : α → Form β} (hnext : ∀ a, (next a).Collects)
    {b : β} : (form >>= next).Gives b ↔ ∃ a, form.Gives a ∧ (next a).Gives b := by
  constructor
  · intro hgives
    unfold Gives at hgives ⊢
    rw [run_bind] at hgives
    rcases hrun : form.run [] with ⟨a, errors⟩
    rw [hrun, hnext a errors, Prod.mk.injEq, List.append_eq_nil_iff] at hgives
    obtain ⟨hvalue, rfl, hrest⟩ := hgives
    exact ⟨a, rfl, Prod.ext hvalue hrest⟩
  · rintro ⟨a, hform, hgives⟩
    exact hform.bind hgives

/-- A field that is absent. -/
theorem optional_gives_of_absent {members : Members} {name : String} {absent : α}
    {read : Json → Checked α} (h : members.lookup name = none) :
    (optional members name absent read).Gives absent := by
  unfold optional
  rw [h]
  exact gives_pure absent

/-- A field that is given and accepted. -/
theorem optional_gives_of_given {members : Members} {name : String} {absent : α}
    {read : Json → Checked α} {value : Json} {a : α} (h : members.lookup name = some value)
    (hread : read value = .ok a) : (optional members name absent read).Gives a := by
  unfold optional
  simp only [h, hread]
  exact gives_pure a

/-! ## What holds of the values -/

/-- A form collects its problems, and something holds of every value it gives. -/
structure Ensures (form : Form α) (post : α → Prop) : Prop where
  collects : form.Collects
  holds : ∀ {a}, form.Gives a → post a

section Rules

variable {p : α → Prop} {post : β → Prop}

theorem ensures_pure {a : α} (h : p a) : Ensures (pure a : Form α) p where
  collects := collects_pure a
  holds hgives := (Prod.mk.inj hgives).1 ▸ h

/-- What a part ensures may be used for the rest. -/
theorem Ensures.bind {form : Form α} {next : α → Form β} (hform : form.Ensures p)
    (hnext : ∀ a, (next a).Ensures fun b => p a → post b) : (form >>= next).Ensures post where
  collects := hform.collects.bind fun a => (hnext a).collects
  holds hgives := by
    obtain ⟨a, ha, hb⟩ := (gives_bind_iff fun a => (hnext a).collects).mp hgives
    exact (hnext a).holds hb (hform.holds ha)

/-- A field ensures what holds of the value for its absence and of every value it accepts. -/
theorem optional_ensures {members : Members} {name : String} {absent : α}
    {read : Json → Checked α} (habsent : p absent)
    (hread : ∀ {value a}, read value = .ok a → p a) :
    (optional members name absent read).Ensures p where
  collects := collects_keep _ _ _
  holds {a} hgives := by
    unfold optional at hgives
    cases hlookup : members.lookup name with
    | none =>
      simp only [hlookup] at hgives
      exact (Prod.mk.inj hgives).1 ▸ habsent
    | some value =>
      simp only [hlookup] at hgives
      cases hvalue : read value with
      | ok b =>
        rw [hvalue] at hgives
        exact (Prod.mk.inj hgives).1 ▸ hread hvalue
      | error errors =>
        -- A reader that names no problem leaves the value for the absence.
        rw [hvalue] at hgives
        exact (Prod.mk.inj hgives).1 ▸ habsent

/-- A field of which nothing is asked. -/
theorem optional_collects {members : Members} {name : String} {absent : α}
    {read : Json → Checked α} :
    (optional members name absent read).Ensures fun _ => True :=
  optional_ensures trivial fun _ => trivial

end Rules

end Form

/-! ## Bounded fields -/

section Bounds

variable {α : Type} {value : Json}

/-- A value is accepted when it is read and not refused. -/
theorem refusing_eq_ok_iff (refused : α → Prop) [DecidablePred refused]
    (reason : α → FieldProblem) {read : Checked α} {a : α} :
    (do let b ← read; if refused b then problem (reason b) else return b : Checked α) = .ok a ↔
      read = .ok a ∧ ¬ refused a := by
  cases read with
  | error errors => exact iff_of_false nofun nofun
  | ok b =>
    change (if refused b then problem (reason b) else Except.ok b) = .ok a ↔ _
    split
    case isTrue hrefused =>
      refine iff_of_false nofun ?_
      rintro ⟨hread, haccepted⟩
      cases hread
      exact haccepted hrefused
    case isFalse haccepted =>
      refine ⟨?_, And.left⟩
      rintro hread
      cases hread
      exact ⟨rfl, haccepted⟩

/-- A value is accepted when it is read and admitted. -/
theorem admitting_eq_ok_iff (admitted : α → Prop) [DecidablePred admitted] {reason : FieldProblem}
    {read : Checked α} {a : α} :
    (do let b ← read; if admitted b then return b else problem reason : Checked α) = .ok a ↔
      read = .ok a ∧ admitted a := by
  simp only [← ite_not (p := admitted _)]
  rw [refusing_eq_ok_iff (fun b => ¬ admitted b) fun _ => reason, not_not]

/-- **A bounded integer** is one that is not less than its bound. -/
theorem integerFrom_eq_ok_iff {least n : Int} :
    integerFrom least value = .ok n ↔ integerField value = .ok n ∧ least ≤ n := by
  rw [← Int.not_lt]
  exact refusing_eq_ok_iff (· < least) fun _ => .tooSmall

/-- **A number from zero on** is one that this bound lets through. -/
theorem realFromZero_eq_ok_iff {x : Binary64} :
    realFromZero value = .ok x ↔ realField value = .ok x ∧ x.Passes (0 ≤ ·) := by
  rw [← Binary64.fromZero_iff]
  exact admitting_eq_ok_iff fun x : Binary64 =>
    (Binary64.zero.less x || Binary64.zero.same x) = true

/-- **A number above zero** is one that this bound lets through. -/
theorem realAboveZero_eq_ok_iff {x : Binary64} :
    realAboveZero value = .ok x ↔ realField value = .ok x ∧ x.Passes (0 < ·) := by
  rw [← Binary64.aboveZero_iff]
  exact admitting_eq_ok_iff fun x : Binary64 => Binary64.zero.less x = true

end Bounds

end Rollout

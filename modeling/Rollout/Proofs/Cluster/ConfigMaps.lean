import Rollout.Cluster.Objects
import Rollout.Proofs.World.Lookups
import Rollout.Proofs.World.Runs

/-!
# What a config map holds once it was ensured

A config map is made with the data that is given, or patched with it when it exists already. A patch
is merged into what is there: it sets the keys that it has, and takes no key away.

- `Members.lookup_putAll`: what a patch of an object sets and what it keeps.
- `Store.find?_put`: what an object that is set leaves of the other ones.
- `ensureConfigMap_run`: **a config map ensured**, as the manifest that is stored.
- `ensured_data_iff`: the data is that which was given just when every key that was there before is
  given again.
-/

namespace Rollout

/-! ## Members -/

section Members

variable {key : String} {value : Json} {members patch : Members}

theorem Members.lookup_put (key other : String) (value : Json) (members : Members) :
    (Members.put key value members).lookup other
      = if other = key then some value else members.lookup other := by
  induction members with
  | nil => exact lookup_cons_eq_ite (key, value) [] other
  | cons entry rest ih =>
    rw [put]
    by_cases hentry : entry.1 = key
    · rw [if_pos (beq_iff_eq.mpr hentry), lookup_cons_eq_ite, lookup_cons_eq_ite, hentry]
      split <;> rfl
    · rw [if_neg (by rwa [beq_iff_eq]), lookup_cons_eq_ite, lookup_cons_eq_ite, ih]
      by_cases hother : other = entry.1
      · rw [if_pos hother, if_pos hother, if_neg (hother ▸ hentry)]
      · rw [if_neg hother, if_neg hother]

/-- A member that has its value already is not touched. -/
theorem Members.put_of_lookup (h : members.lookup key = some value) :
    Members.put key value members = members := by
  induction members with
  | nil => cases h
  | cons entry rest ih =>
    rw [lookup_cons_eq_ite] at h
    rw [put]
    by_cases hentry : key = entry.1
    · rw [if_pos hentry] at h
      cases h
      rw [if_pos (beq_iff_eq.mpr hentry.symm), hentry]
    · rw [if_neg hentry] at h
      rw [if_neg (by simpa using Ne.symm hentry), ih h]

/-- **A patch** sets the members that it has and keeps the other ones. -/
theorem Members.lookup_putAll (hpatch : (patch.map Prod.fst).Nodup) (key : String) :
    (putAll patch members).lookup key = (patch.lookup key).or (members.lookup key) := by
  induction patch generalizing members with
  | nil => rfl
  | cons entry rest ih =>
    obtain ⟨hnew, hrest⟩ := List.nodup_cons.mp hpatch
    show (putAll rest (Members.put entry.1 entry.2 members)).lookup key = _
    rw [ih hrest, lookup_put, lookup_cons_eq_ite]
    by_cases hkey : key = entry.1
    · have hnone : rest.lookup key = none :=
        (lookup_eq_none_iff_notMem rest key).mpr (hkey ▸ hnew)
      rw [hnone, if_pos hkey, if_pos hkey]
      rfl
    · rw [if_neg hkey, if_neg hkey]

/-- A patch whose members have their values already changes nothing. -/
theorem Members.putAll_of_lookup (h : ∀ entry ∈ patch, members.lookup entry.1 = some entry.2) :
    putAll patch members = members := by
  induction patch with
  | nil => rfl
  | cons entry rest ih =>
    obtain ⟨hentry, hrest⟩ := List.forall_mem_cons.mp h
    show putAll rest (Members.put entry.1 entry.2 members) = members
    rw [put_of_lookup hentry, ih hrest]

end Members

/-! ## Stored objects -/

namespace Store

theorem find?_put (key other : ObjectKey) (manifest : Json) (store : Store) :
    (store.put key manifest).find? other
      = if key = other then some manifest else store.find? other := by
  induction store with
  | nil => rfl
  | cons object rest ih =>
    rw [put]
    by_cases hobject : object.key = key
    · rw [if_pos hobject, find?, find?, hobject]
      split <;> rfl
    · rw [if_neg hobject, find?, find?, ih]
      by_cases hother : object.key = other
      · rw [if_pos hother, if_pos hother, if_neg fun h => hobject (hother.trans h.symm)]
      · rw [if_neg hother, if_neg hother]

/-- An object that is there already is not touched. -/
theorem put_of_find? {key : ObjectKey} {manifest : Json} {store : Store}
    (h : store.find? key = some manifest) : store.put key manifest = store := by
  induction store with
  | nil => cases h
  | cons object rest ih =>
    rw [find?] at h
    rw [put]
    split at h
    · rename_i hobject
      cases h
      rw [if_pos hobject, ← hobject]
    · rename_i hobject
      rw [if_neg hobject, ih h]

end Store

/-! ## Config maps -/

/-- The members of an object; other values have none. -/
def Json.membersOf : Option Json → Members
  | some (.obj members) => members
  | _ => []

/-- Where a config map is stored. -/
def configMapKey (space name : String) : ObjectKey :=
  ⟨space, configMapKind, name⟩

/-- The data of a config map; nothing when there is none. -/
def Store.configData (space name : String) (store : Store) : Members :=
  Json.membersOf ((store.find? (configMapKey space name)).bind (Json.member? "data"))

/-- The members of given data. -/
def ConfigData.members (data : ConfigData) : Members :=
  data.map fun entry => (entry.1, .str entry.2)

theorem ConfigData.keys_members (data : ConfigData) :
    data.members.map Prod.fst = data.map Prod.fst := by
  rw [members, List.map_map]
  rfl

theorem ConfigData.lookup_members (data : ConfigData) (key : String) :
    data.members.lookup key = (data.lookup key).map .str := by
  induction data with
  | nil => rfl
  | cons entry rest ih =>
    show ((entry.1, Json.str entry.2) :: ConfigData.members rest).lookup key = _
    rw [List.lookup_cons, List.lookup_cons, ih]
    split <;> rfl

/-- The manifest of a config map once it was ensured, by the one that was there before. -/
def ensuredManifest (name : String) (data : ConfigData) : Option Json → Json
  | some (.obj members) =>
    .obj (Members.put "data" (mergedValue (members.lookup "data") data.toJson) members)
  | _ => configMapObject name data

section Manifests

variable {name : String} {data : ConfigData}

/-- An object merged into what is in its place. -/
theorem mergedValue_obj {patch : Members} (hpatch : (patch.map Prod.fst).Nodup)
    (old : Option Json) :
    ∃ entries, mergedValue old (.obj patch) = .obj entries ∧
      ∀ key, entries.lookup key = (patch.lookup key).or ((Json.membersOf old).lookup key) := by
  cases old with
  | none => exact ⟨patch, rfl, fun _ => Option.or_none.symm⟩
  | some value =>
    cases value with
    | obj members => exact ⟨_, rfl, Members.lookup_putAll hpatch⟩
    | _ => exact ⟨patch, rfl, fun _ => Option.or_none.symm⟩

/-- The manifest is an object, and so is its data, which has what is given, and what was there
before under other keys. -/
theorem ensuredManifest_data (name : String) (hdata : (data.map Prod.fst).Nodup)
    (earlier : Option Json) :
    ∃ members entries, ensuredManifest name data earlier = .obj members ∧
      members.lookup "data" = some (.obj entries) ∧
      ∀ key, entries.lookup key = (data.members.lookup key).or
        ((Json.membersOf (earlier.bind (Json.member? "data"))).lookup key) := by
  cases earlier with
  | none => exact ⟨_, data.members, rfl, rfl, fun _ => Option.or_none.symm⟩
  | some manifest =>
    cases manifest with
    | obj members =>
      rw [← data.keys_members] at hdata
      obtain ⟨entries, hmerged, hentries⟩ := mergedValue_obj hdata (members.lookup "data")
      refine ⟨_, entries, rfl, ?_, hentries⟩
      rw [Members.lookup_put, if_pos rfl]
      exact congrArg some hmerged
    | _ => exact ⟨_, data.members, rfl, rfl, fun _ => Option.or_none.symm⟩

/-- A manifest that was ensured is ensured already. -/
theorem ensuredManifest_ensuredManifest (name : String) (hdata : (data.map Prod.fst).Nodup)
    (earlier : Option Json) :
    ensuredManifest name data (some (ensuredManifest name data earlier))
      = ensuredManifest name data earlier := by
  obtain ⟨members, entries, hmembers, hentries, hlookup⟩ := ensuredManifest_data name hdata earlier
  have hheld : putAll data.members entries = entries := by
    refine Members.putAll_of_lookup fun entry hentry => ?_
    rw [← data.keys_members] at hdata
    rw [hlookup, lookup_of_mem_nodup hdata hentry]
    rfl
  have hmerged : mergedValue (members.lookup "data") data.toJson = .obj entries := by
    rw [hentries]
    exact congrArg Json.obj hheld
  rw [hmembers, ensuredManifest, hmerged, Members.put_of_lookup hentries]

end Manifests

/-! ## Operations on stored objects -/

/-- The world with an object set. -/
def World.storing (key : ObjectKey) (manifest : Json) (world : World) : World :=
  { world with store := world.store.put key manifest }

namespace Client

variable (space kind : String) (world : World)

theorem get_store_run (name : String) :
    Client.get .store space kind name world
      = .ok (world.store.find? ⟨space, kind, name⟩) (world.logging [.get space kind name]) := rfl

theorem create_store_run {name : String} {manifest : Json}
    (hname : manifestName manifest = .ok name) :
    Client.create .store space kind manifest world
      = .ok manifest ((world.storing ⟨space, kind, name⟩ manifest).logging
          [.create space kind manifest]) := by
  have hemit : Run.emit (.create space kind manifest) world
      = .ok () (world.logging [.create space kind manifest]) := rfl
  rw [create, Run.bind_of_ok hemit, hname]
  rfl

theorem edit_store_run {name : String} {manifest patch changed : Json}
    (hmanifest : world.store.find? ⟨space, kind, name⟩ = some manifest)
    (hchanged : merged manifest patch = .ok changed) :
    Client.edit .store space kind name patch world
      = .ok changed ((world.storing ⟨space, kind, name⟩ changed).logging
          [.edit space kind name patch]) := by
  have hemit : Run.emit (.edit space kind name patch) world
      = .ok () (world.logging [.edit space kind name patch]) := rfl
  have hfound : (world.logging [.edit space kind name patch]).store.find? ⟨space, kind, name⟩
      = some manifest := hmanifest
  have hget : (MonadState.get : Run World) (world.logging [.edit space kind name patch])
      = .ok (world.logging [.edit space kind name patch]) _ := rfl
  rw [edit, Run.bind_of_ok hemit, Run.bind_of_ok hget, hfound]
  dsimp only
  rw [hchanged]
  rfl

end Client

/-! ## Ensuring one -/

section Ensuring

variable {space name : String} {world : World}

/-- **A config map ensured**: the manifest that is stored. -/
theorem ensureConfigMap_run
    (hobject : ∀ manifest, world.store.find? (configMapKey space name) = some manifest →
      ∃ members, manifest = .obj members) (data : ConfigData) :
    ∃ events, ensureConfigMap .store space name data world
      = .ok () ((world.storing (configMapKey space name)
          (ensuredManifest name data (world.store.find? (configMapKey space name)))).logging
            events) := by
  have hget := Client.get_store_run space configMapKind world name
  rw [← configMapKey] at hget
  cases hearlier : world.store.find? (configMapKey space name) with
  | none =>
    have hcreate := Client.create_store_run space configMapKind
      (world.logging [.get space configMapKind name])
      (rfl : manifestName (configMapObject name data) = .ok name)
    rw [hearlier] at hget
    refine ⟨[.get space configMapKind name] ++
      [.create space configMapKind (configMapObject name data)], ?_⟩
    rw [ensureConfigMap, Run.bind_of_ok hget, ← World.logging_logging]
    exact Run.bind_of_ok hcreate
  | some manifest =>
    obtain ⟨members, rfl⟩ := hobject manifest hearlier
    have hedit := Client.edit_store_run space configMapKind
      (world.logging [.get space configMapKind name]) hearlier
      (rfl : merged (.obj members) (.obj [("data", data.toJson)])
        = .ok (ensuredManifest name data (some (.obj members))))
    rw [hearlier] at hget
    refine ⟨[.get space configMapKind name] ++
      [.edit space configMapKind name (.obj [("data", data.toJson)])], ?_⟩
    rw [ensureConfigMap, Run.bind_of_ok hget, ← World.logging_logging]
    exact Run.bind_of_ok hedit

/-- A config map that holds what ensuring it gives is not touched by it. -/
theorem ensureConfigMap_run_of_ensured {data : ConfigData} (hdata : (data.map Prod.fst).Nodup)
    {earlier : Option Json}
    (hensured : world.store.find? (configMapKey space name)
      = some (ensuredManifest name data earlier)) :
    ∃ again, ensureConfigMap .store space name data world = .ok () again ∧
      again.store = world.store := by
  obtain ⟨members, -, hmembers, -⟩ := ensuredManifest_data name hdata earlier
  have hobject : ∀ manifest, world.store.find? (configMapKey space name) = some manifest →
      ∃ members, manifest = .obj members := by
    rintro manifest hmanifest
    rw [hensured] at hmanifest
    cases hmanifest
    exact ⟨members, hmembers⟩
  obtain ⟨events, hagain⟩ := ensureConfigMap_run hobject data
  rw [hensured, ensuredManifest_ensuredManifest name hdata] at hagain
  exact ⟨_, hagain, Store.put_of_find? hensured⟩

/-- **The data of a config map** that was ensured, and what is ensured along with it: the data has
what was given, and what it had before under other keys. So it is exactly what was given just when
every key that was there before is given again. Whatever it was, the rest of the config map and all
other objects are left alone, a new config map has nothing but its name and its data, and ensuring
it once more changes no object. -/
theorem ensured_data_iff {data : ConfigData} (hdata : (data.map Prod.fst).Nodup)
    (hobject : ∀ manifest, world.store.find? (configMapKey space name) = some manifest →
      ∃ members, manifest = .obj members) :
    ∃ ensured manifest,
      ensureConfigMap .store space name data world = .ok () ensured ∧
      ensured.store.find? (configMapKey space name) = some manifest ∧
      -- its data
      (∃ entries, manifest.member? "data" = some (.obj entries) ∧
        (∀ key, entries.lookup key = ((data.lookup key).map .str).or
          ((world.store.configData space name).lookup key)) ∧
        ((∀ key, entries.lookup key = (data.lookup key).map .str) ↔
          ∀ entry ∈ world.store.configData space name, entry.1 ∈ data.map Prod.fst)) ∧
      -- the rest of it
      (world.store.find? (configMapKey space name) = none → manifest = configMapObject name data) ∧
      (∀ earlier, world.store.find? (configMapKey space name) = some earlier →
        ∀ member ≠ "data", manifest.member? member = earlier.member? member) ∧
      -- other objects
      (∀ other ≠ configMapKey space name, ensured.store.find? other = world.store.find? other) ∧
      -- ensuring it once more
      ∃ again, ensureConfigMap .store space name data ensured = .ok () again ∧
        again.store = ensured.store := by
  obtain ⟨events, hensured⟩ := ensureConfigMap_run hobject data
  obtain ⟨members, entries, hmembers, hentries, hlookup⟩ :=
    ensuredManifest_data name hdata (world.store.find? (configMapKey space name))
  have hstored : (world.store.put (configMapKey space name) (ensuredManifest name data
      (world.store.find? (configMapKey space name)))).find? (configMapKey space name)
        = some (ensuredManifest name data (world.store.find? (configMapKey space name))) := by
    rw [Store.find?_put, if_pos rfl]
  refine ⟨_, _, hensured, hstored, ⟨entries, ?_, ?_, ?_⟩, ?_, ?_, ?_, ?_⟩
  · rw [hmembers]
    exact hentries
  · intro key
    rw [← data.lookup_members]
    exact hlookup key
  · simp only [← data.lookup_members, ← data.keys_members, hlookup]
    exact lookup_or_eq_iff data.members _
  · intro hnone
    rw [hnone]
    rfl
  · intro earlier hearlier member hmember
    obtain ⟨members, rfl⟩ := hobject earlier hearlier
    rw [hearlier]
    exact (Members.lookup_put _ _ _ _).trans (if_neg hmember)
  · intro other hother
    exact (Store.find?_put _ _ _ _).trans (if_neg (Ne.symm hother))
  · exact ensureConfigMap_run_of_ensured hdata hstored

end Ensuring

/-- A world with a config map that has one key. -/
def World.withOldKey : World :=
  { World.start Files.empty with
    store := [⟨configMapKey "test" "cm",
      .obj [("metadata", .obj [("name", .str "cm")]), ("data", .obj [("old", .str "1")])]⟩] }

/-- The old key is still there once the config map was ensured with another one. -/
theorem ensured_data_withOldKey :
    ∃ ensured manifest entries,
      ensureConfigMap .store "test" "cm" [("new", "2")] World.withOldKey = .ok () ensured ∧
      ensured.store.find? (configMapKey "test" "cm") = some manifest ∧
      manifest.member? "data" = some (.obj entries) ∧
      entries.lookup "new" = some (.str "2") ∧ entries.lookup "old" = some (.str "1") ∧
      ¬ ∀ key, entries.lookup key = ([("new", "2")].lookup key).map Json.str := by
  have hobject : ∀ manifest,
      World.withOldKey.store.find? (configMapKey "test" "cm") = some manifest →
        ∃ members, manifest = .obj members := by
    rintro _ ⟨⟩
    exact ⟨_, rfl⟩
  obtain ⟨ensured, manifest, hensured, hmanifest, ⟨entries, hentries, hlookup, hiff⟩, -⟩ :=
    ensured_data_iff (by decide : ([("new", "2")].map Prod.fst).Nodup) hobject
  refine ⟨ensured, manifest, entries, hensured, hmanifest, hentries, hlookup "new", hlookup "old",
    ?_⟩
  rw [hiff]
  intro hgiven
  exact absurd (hgiven ("old", .str "1") (List.mem_singleton.mpr rfl)) (by decide)

end Rollout

import TapeMachine.Storage.Directory

/-!
# Writing one file

What a write may do to the files: the path that was written leads to the new content, and every path to
another place leads to what it led to before.  Paths can be many for one place, so the law speaks of
places.  A directory of files obeys it: a file is only put where no directory was, so every walk through
directories goes as before, and none of them ends at the new file but those that lead to its place.

## Main definitions

* `Storage.Lawful` — a write changes the file that its path leads to, and no other.
* `Directory.placeOf` — the place that a path means, whatever is there.

## Main results

* `Directory.node?_put_of_ne` — putting a file into a directory changes nothing anywhere else.
* `Directory.storage_lawful` — a directory of files is lawful.
-/

namespace TapeMachine

theorem Except.bind_eq_ok_iff {ε α β : Type} {x : Except ε α} {f : α → Except ε β} {result : β} :
    x >>= f = .ok result ↔ ∃ value, x = .ok value ∧ f value = .ok result := by
  cases x with
  | error e => exact iff_of_false (fun h => nomatch h) fun ⟨_, h, _⟩ => nomatch h
  | ok value =>
    constructor
    · intro h
      exact ⟨value, rfl, h⟩
    · rintro ⟨_, ⟨⟩, h⟩
      exact h

/-- A write changes the file that its path leads to and no other; `place` tells which paths lead to one
file.  A path that leads nowhere need not lead to the new file, even if it means its place, and what
failed to be read may fail in another way afterwards. -/
structure Storage.Lawful {σ κ : Type} (storage : Storage σ) (place : String → κ) : Prop where
  /-- The path that was written leads to the new content. -/
  read_written : ∀ {files files' : σ} {path : String} {content : List UInt8},
    storage.write files path content = .ok files' → storage.read files' path = .ok content
  /-- What else leads to the file that was written leads to the new content. -/
  read_same_place : ∀ {files files' : σ} {path other : String} {content bytes : List UInt8},
    storage.write files path content = .ok files' → place other = place path →
      storage.read files' other = .ok bytes → bytes = content
  /-- A path to another place leads to what it led to. -/
  read_elsewhere : ∀ {files files' : σ} {path other : String} {content : List UInt8},
    storage.write files path content = .ok files' → place other ≠ place path →
      ∀ bytes, storage.read files' other = .ok bytes ↔ storage.read files other = .ok bytes

namespace Directory

/-- The place that a path means, whatever is there. -/
def placeOf (path : String) : Place :=
  (names path).foldl enter (origin path)

variable {directory : Directory} {place spot start : Place} {name path : String}
  {content : List UInt8}

/-! ### Folders -/

/-- What leads on to a place that needs no entry needs none. -/
theorem isOutside_of_isPrefix (hplace : isOutside place = true) (hleads : spot <+: place) :
    isOutside spot = true := by
  rw [isOutside, Bool.or_eq_true, beq_iff_eq] at hplace ⊢
  rcases hplace with rfl | hplace
  · rcases List.prefix_concat_iff.mp (show spot <+: [] ++ [root] from hleads) with rfl | hnil
    · exact .inl rfl
    · rw [List.prefix_nil.mp hnil]
      exact .inr rfl
  · rw [List.all_eq_true] at hplace ⊢
    exact .inr fun name hname => hplace name (hleads.subset hname)

/-- A place without an entry is a directory if it needs none or leads on to one. -/
theorem node?_of_lookup_eq_none (hspot : directory.entries.lookup spot = none) :
    directory.node? spot =
      if isOutside spot = true ∨ ∃ entry ∈ directory.entries, spot <+: entry.1 then some .folder
      else none := by
  simp only [node?, hspot, Bool.or_eq_true, List.any_eq_true, List.isPrefixOf_iff_prefix]

/-- What leads on to a directory is a directory itself, if it has no entry. -/
theorem isOutside_or_exists_of_isPrefix (hplace : directory.node? place = some .folder)
    (hleads : spot <+: place) :
    isOutside spot = true ∨ ∃ entry ∈ directory.entries, spot <+: entry.1 := by
  cases hlookup : directory.entries.lookup place with
  | some node =>
    obtain ⟨older, newer, hentries, -⟩ := List.lookup_eq_some_iff.mp hlookup
    exact .inr ⟨(place, node), by simp [hentries], hleads⟩
  | none =>
    rw [node?_of_lookup_eq_none hlookup] at hplace
    rcases (Option.ite_none_right_eq_some.mp hplace).1 with houtside | ⟨entry, hentry, hle⟩
    · exact .inl (isOutside_of_isPrefix houtside hleads)
    · exact .inr ⟨entry, hentry, hleads.trans hle⟩

/-! ### Putting a file -/

theorem lookup_filter_of_ne (hspot : spot ≠ place) : ∀ entries : List (Place × Node),
    (entries.filter (·.1 != place)).lookup spot = entries.lookup spot := by
  intro entries
  induction entries with
  | nil => rfl
  | cons entry entries ih =>
    by_cases hentry : entry.1 = place
    · rw [List.filter_cons_of_neg (by simp [hentry]), ih, List.lookup_cons, hentry,
        beq_eq_false_iff_ne.mpr hspot]
    · rw [List.filter_cons_of_pos (by simp [hentry]), List.lookup_cons, List.lookup_cons, ih]

theorem node?_put_self : (directory.put spot content).node? spot = some (.file content) := by
  simp [node?, put]

/-- Putting a file into a directory changes nothing anywhere else. -/
theorem node?_put_of_ne (hplace : directory.node? place = some .folder)
    (hspot : spot ≠ place ++ [name]) :
    (directory.put (place ++ [name]) content).node? spot = directory.node? spot := by
  have hlookup : (directory.put (place ++ [name]) content).entries.lookup spot =
      directory.entries.lookup spot := by
    rw [put, List.lookup_cons, beq_eq_false_iff_ne.mpr hspot]
    exact lookup_filter_of_ne hspot directory.entries
  cases hnode : directory.entries.lookup spot with
  | some node => rw [node?, node?, hlookup, hnode]
  | none =>
    rw [node?_of_lookup_eq_none hnode, node?_of_lookup_eq_none (hlookup.trans hnode)]
    congr 1
    -- The new file makes directories only of what leads to its own directory.
    apply propext
    constructor
    · rintro (houtside | ⟨entry, hentry, hle⟩)
      · exact .inl houtside
      · rcases List.mem_cons.mp hentry with rfl | hentry
        · rcases List.prefix_concat_iff.mp hle with heq | hle
          · exact absurd heq hspot
          · exact isOutside_or_exists_of_isPrefix hplace hle
        · exact .inr ⟨entry, (List.mem_filter.mp hentry).1, hle⟩
    · rintro (houtside | ⟨entry, hentry, hle⟩)
      · exact .inl houtside
      · by_cases hkey : entry.1 = place ++ [name]
        · exact .inr ⟨_, List.mem_cons_self, hkey ▸ hle⟩
        · exact .inr ⟨entry, List.mem_cons_of_mem _
            (List.mem_filter.mpr ⟨hentry, by simpa using hkey⟩), hle⟩

/-! ### Walks -/

theorem eq_foldl_of_follow : ∀ {names : List String} {start : Place},
    directory.follow start names = .ok place → place = names.foldl enter start := by
  intro names
  induction names with
  | nil =>
    intro start h
    cases h
    rfl
  | cons name names ih =>
    intro start h
    rw [follow] at h
    split at h
    · cases h
    · cases h
    · exact ih h

theorem follow_append_singleton (hplace : directory.node? place = some .folder) :
    ∀ {names : List String} {start : Place}, directory.follow start names = .ok place →
      directory.follow start (names ++ [name]) = .ok (enter place name) := by
  intro names
  induction names with
  | nil =>
    intro start h
    cases h
    simp [follow, hplace]
  | cons first names ih =>
    intro start h
    rw [List.cons_append, follow]
    rw [follow] at h
    cases hstart : directory.node? start with
    | none => simp [hstart] at h
    | some node =>
      cases node with
      | file content => simp [hstart] at h
      | folder => exact ih (by simpa [hstart] using h)

/-- A walk goes on only in directories, and none of them is where a file is put. -/
theorem follow_put_eq_ok_iff (hplace : directory.node? place = some .folder)
    (hfile : directory.node? (place ++ [name]) ≠ some .folder) :
    ∀ {names : List String} {start : Place},
      (directory.put (place ++ [name]) content).follow start names = .ok spot ↔
        directory.follow start names = .ok spot := by
  intro names
  induction names with
  | nil => exact Iff.rfl
  | cons first names ih =>
    intro start
    rw [follow, follow]
    by_cases hstart : start = place ++ [name]
    · rw [hstart, node?_put_self]
      cases hnode : directory.node? (place ++ [name]) with
      | none => simp
      | some node =>
        cases node with
        | file content => simp
        | folder => exact absurd hnode hfile
    · rw [node?_put_of_ne hplace hstart]
      cases directory.node? start with
      | none => exact Iff.rfl
      | some node =>
        cases node with
        | file content => exact Iff.rfl
        | folder => exact ih

/-! ### Reading and writing -/

/-- What a successful write into a directory did: it put a file there, under a name of its own, where no
directory was. -/
theorem eq_put_of_writeAt {slash : Bool} {files' : Directory}
    (h : directory.writeAt place name slash content = .ok files') :
    directory.node? place = some .folder ∧ slash = false ∧ name ≠ "" ∧
      enter place name = place ++ [name] ∧ directory.node? (place ++ [name]) ≠ some .folder ∧
      files' = directory.put (place ++ [name]) content := by
  rw [writeAt] at h
  split at h
  · cases h
  · cases h
  · next hplace =>
    split at h
    · cases h
    · next hname =>
      simp only [Bool.or_eq_true, beq_iff_eq, not_or, Bool.not_eq_true] at hname
      obtain ⟨⟨⟨hslash, hempty⟩, hdot⟩, hdots⟩ := hname
      have henter : enter place name = place ++ [name] := by simp [enter, hempty, hdot, hdots]
      rw [henter] at h
      split at h
      · cases h
      · next hfile =>
        cases h
        exact ⟨hplace, hslash, hempty, henter, hfile, rfl⟩

/-- What a successful write did. -/
theorem exists_of_write {files' : Directory} (h : directory.write path content = .ok files') :
    ∃ stem name place, names path = stem ++ [name] ∧ path ≠ "" ∧
      directory.follow (origin path) stem = .ok place ∧ directory.node? place = some .folder ∧
      enter place name = place ++ [name] ∧ directory.node? (place ++ [name]) ≠ some .folder ∧
      files' = directory.put (place ++ [name]) content := by
  rw [write] at h
  split at h
  · cases h
  · next hpath =>
    obtain ⟨place, hfollow, hput⟩ := Except.bind_eq_ok_iff.mp h
    obtain ⟨hplace, hslash, hempty, henter, hfile, rfl⟩ := eq_put_of_writeAt hput
    refine ⟨_, _, place, ?_, hpath, hfollow, hplace, henter, hfile, rfl⟩
    have hstem : dropSlashes (names path) = names path := by simpa using hslash
    cases hlast : (dropSlashes (names path)).getLast? with
    | none => simp [hlast] at hempty
    | some last =>
      obtain ⟨stem, hsplit⟩ := List.getLast?_eq_some_iff.mp hlast
      rw [hstem] at hsplit ⊢
      rw [hsplit, List.dropLast_concat, Option.getD_some]

/-- What a successful write did, by the place of its path. -/
theorem exists_placeOf_of_write {files' : Directory}
    (h : directory.write path content = .ok files') :
    ∃ place name, placeOf path = place ++ [name] ∧ directory.node? place = some .folder ∧
      directory.node? (place ++ [name]) ≠ some .folder ∧
      files' = directory.put (place ++ [name]) content := by
  obtain ⟨stem, name, place, hnames, -, hfollow, hplace, henter, hfile, rfl⟩ := exists_of_write h
  refine ⟨place, name, ?_, hplace, hfile, rfl⟩
  rw [placeOf, hnames, List.foldl_append, ← eq_foldl_of_follow hfollow]
  exact henter

theorem read_eq_ok_iff {bytes : List UInt8} :
    directory.read path = .ok bytes ↔
      path ≠ "" ∧ ∃ spot, directory.follow (origin path) (names path) = .ok spot ∧
        directory.node? spot = some (.file bytes) := by
  rw [read, Except.bind_eq_ok_iff, find]
  by_cases hpath : path = ""
  · simp [hpath]
  · rw [if_neg hpath, and_iff_right hpath]
    refine exists_congr fun spot => and_congr_right fun _ => ?_
    cases directory.node? spot with
    | none => simp
    | some node => cases node <;> simp

/-- **A directory of files is lawful.**  The file that a write puts down is on the way of no other walk,
and a walk that does not end at its place ends at what was there. -/
theorem storage_lawful : storage.Lawful placeOf := by
  constructor
  · intro files files' path content h
    obtain ⟨stem, name, place, hnames, hpath, hfollow, hplace, henter, hfile, rfl⟩ := exists_of_write h
    refine read_eq_ok_iff.mpr ⟨hpath, place ++ [name], ?_, node?_put_self⟩
    rw [follow_put_eq_ok_iff hplace hfile, hnames, ← henter]
    exact follow_append_singleton hplace hfollow
  · intro files files' path other content bytes h hother hread
    obtain ⟨place, name, hspot, hplace, hfile, rfl⟩ := exists_placeOf_of_write h
    obtain ⟨-, spot, hwalk, hbytes⟩ := read_eq_ok_iff.mp hread
    have heq : spot = place ++ [name] := by
      rw [← hspot, ← hother]
      exact eq_foldl_of_follow hwalk
    rw [heq, node?_put_self] at hbytes
    cases hbytes
    rfl
  · intro files files' path other content h hother bytes
    obtain ⟨place, name, hspot, hplace, hfile, rfl⟩ := exists_placeOf_of_write h
    change read _ other = _ ↔ read files other = _
    rw [read_eq_ok_iff, read_eq_ok_iff]
    simp only [follow_put_eq_ok_iff hplace hfile]
    have hnode : ∀ spot, files.follow (origin other) (names other) = .ok spot →
        (files.put (place ++ [name]) content).node? spot = files.node? spot := by
      intro spot hwalk
      refine node?_put_of_ne hplace fun heq => hother ?_
      rw [hspot, ← heq]
      exact (eq_foldl_of_follow hwalk).symm
    constructor
    · rintro ⟨hne, spot, hwalk, hbytes⟩
      exact ⟨hne, spot, hwalk, hnode spot hwalk ▸ hbytes⟩
    · rintro ⟨hne, spot, hwalk, hbytes⟩
      exact ⟨hne, spot, hwalk, (hnode spot hwalk).trans hbytes⟩

end Directory

end TapeMachine

import DocStore.Config.Layers
import DocStore.Outcome
import DocStore.Proofs.Config.Text
import DocStore.Proofs.Toml.DistinctKeys

/-!
# Layered configurations

What a project's configuration is made of: the tables of its layers (`Layer`), what these say of a
setting (`Said`), the backend that the environment names and the root that a relative directory lies
in (`SettledBy`). `Config.loadStandard_layered` says that a configuration is loaded exactly when the
layers settle it, and what of the layers does not matter.
-/

namespace DocStore

lemma FileTree.isFile_of_readText {files : FileTree} {path s : String}
    (h : files.readText path = .ok s) : files.isFile path = true := by
  obtain ⟨content, hread, -⟩ := bind_eq_ok_iff.mp h
  obtain ⟨entry, hentry, hcontent⟩ := bind_eq_ok_iff.mp hread
  cases entry with
  | file => rw [isFile, hentry]
  | directory => cases hcontent

namespace Config

/-- The table of a layer: an empty one when no file is there, else that of the file's text. -/
inductive Layer (files : FileTree) : Option String → Toml.Table → Prop
  | unnamed : Layer files none []
  | absent {path : String} (h : files.isFile path = false) : Layer files (some path) []
  | read {path s : String} {table : Toml.Table} (htext : files.readText path = .ok s)
      (htable : layerOfText s = .ok table) : Layer files (some path) table

def readLayer (files : FileTree) : Option String → Except ConfigFault Toml.Table
  | none => .ok []
  | some path => if files.isFile path then do layerOfText (← readFile files path) else .ok []

lemma readLayer_eq_ok_iff {files : FileTree} {path : Option String} {table : Toml.Table} :
    readLayer files path = .ok table ↔ Layer files path table := by
  cases path with
  | none =>
    constructor
    · rintro ⟨⟩
      exact .unnamed
    · rintro ⟨⟩
      rfl
  | some path =>
    rw [readLayer]
    constructor
    · intro h
      split at h
      · obtain ⟨s, htext, htable⟩ := bind_eq_ok_iff.mp h
        exact .read (mapError_eq_ok_iff.mp htext) htable
      · rename_i hfile
        cases h
        exact .absent (Bool.not_eq_true _ ▸ hfile)
    · rintro (_ | hfile | ⟨htext, htable⟩)
      · rw [if_neg (by simp [hfile])]
      · have hread : readFile files path = .ok _ := mapError_eq_ok_iff.mpr htext
        rw [if_pos (FileTree.isFile_of_readText htext), hread]
        exact htable

lemma layerOfText_eq_ok_iff {s : String} {table : Toml.Table} :
    layerOfText s = .ok table ↔
      (Toml.Table.ofText? s).bind Toml.Table.textual? = some table := by
  rw [layerOfText]
  cases (Toml.Table.ofText? s).bind Toml.Table.textual? <;> simp

lemma layerOfText_of_layer {files : FileTree} {path s : String} {table : Toml.Table}
    (h : Layer files (some path) table) (htext : files.readText path = .ok s) :
    layerOfText s = .ok table := by
  cases h with
  | absent hfile =>
    rw [FileTree.isFile_of_readText htext] at hfile
    cases hfile
  | read hother htable =>
    rw [hother] at htext
    cases htext
    exact htable

lemma distinct_of_layer {files : FileTree} {path : Option String} {table : Toml.Table}
    (h : Layer files path table) : Fields.Distinct table := by
  cases h with
  | unnamed | absent => exact Fields.distinct_nil
  | @read path s table htext htable =>
    obtain ⟨raw, hraw, htextual⟩ :=
      Option.bind_eq_some_iff.mp (layerOfText_eq_ok_iff.mp htable)
    exact Toml.Table.distinct_of_textual? (Toml.Table.distinct_of_ofText? hraw) htextual

lemma textualMembers?_strings (settings : List (String × String)) :
    Toml.Value.textualMembers? (settings.map fun setting => (setting.1, .string setting.2)) =
      some (settings.map fun setting => (setting.1, .string setting.2)) := by
  induction settings with
  | nil => rfl
  | cons setting rest ih =>
    have hstring : Toml.Value.textual? (.string setting.2) = some (.string setting.2) := by
      simp [Toml.Value.textual?]
    rw [List.map_cons, Toml.Value.textualMembers?, hstring, ih]

/-- The text of a layer that says texts under bare names. -/
def textOfSettings (settings : List (String × String)) : String :=
  String.ofList <|
    (settings.map fun setting => textLine setting.1 setting.2).flatMap Toml.Line.written

/-- Texts that are written as a layer, each under its own name, are read back. -/
theorem layerOfText_textOfSettings {settings : List (String × String)}
    (hbare : ∀ setting ∈ settings, Toml.IsBareKey setting.1) (hkeys : (settings.map (·.1)).Nodup) :
    layerOfText (textOfSettings settings) =
      .ok (settings.map fun setting => (setting.1, .string setting.2)) := by
  let lines := settings.map fun setting => textLine setting.1 setting.2
  have hlegible : ∀ line ∈ lines, line.Legible := by
    intro line hline
    obtain ⟨setting, hsetting, rfl⟩ := List.mem_map.mp hline
    exact legible_textLine (hbare setting hsetting) setting.2
  have hnames : lines.map Toml.Line.key = settings.map (·.1) := List.map_map
  have htable : Toml.Table.ofText? (textOfSettings settings) =
      some (settings.map fun setting => (setting.1, .string setting.2)) := by
    have hread := Toml.Table.ofText?_lines hlegible (hnames ▸ hkeys)
    rw [List.map_map] at hread
    exact hread
  rw [layerOfText_eq_ok_iff, htable]
  exact textualMembers?_strings settings

lemma get?_overlay (key : String) (lower : Toml.Table) {upper : Toml.Table}
    (h : Fields.Distinct upper) :
    Fields.get? key (overlay lower upper) =
      (Fields.get? key upper).or (Fields.get? key lower) := by
  induction upper generalizing lower with
  | nil => rfl
  | cons member rest ih =>
    obtain ⟨name, value⟩ := member
    obtain ⟨hname, hrest⟩ := List.nodup_cons.mp h
    change Fields.get? key (overlay (Fields.insert name value lower) rest) = _
    rw [ih (Fields.insert name value lower) hrest, Fields.get?_cons]
    by_cases hkey : key = name
    · subst hkey
      rw [Fields.get?_eq_none_of_notMem hname, Fields.get?_insert_self, if_pos rfl]
      rfl
    · rw [Fields.get?_insert_of_ne hkey, if_neg hkey]

/-- The table of two layers. -/
def merged (lower upper : Toml.Table) : Toml.Table :=
  overlay (overlay [] lower) upper

lemma get?_merged (key : String) {lower upper : Toml.Table} (hlower : Fields.Distinct lower)
    (hupper : Fields.Distinct upper) :
    Fields.get? key (merged lower upper) = (Fields.get? key upper).or (Fields.get? key lower) := by
  rw [merged, get?_overlay key _ hupper, get?_overlay key _ hlower, Fields.get?_nil, Option.or_none]

lemma mergeFiles_append (files : FileTree) (path : Option String) (rest : List String)
    (table : Toml.Table) :
    mergeFiles files (path.toList ++ rest) table =
      (do mergeFiles files rest (overlay table (← readLayer files path))) := by
  cases path with
  | none => rfl
  | some path =>
    change mergeFiles files (path :: rest) table = _
    rw [mergeFiles, readLayer]
    split
    · cases readFile files path <;> rfl
    · rfl

/-- What becomes of the table of all layers. -/
def settle (table : Toml.Table) (root environment : Option String) : Except ConfigFault Config := do
  let config ← ofTable table
  let config ← config.overrideBackend environment
  (config.placedIn root).validated

lemma loadStandard_eq (files : FileTree) (userDirectory root environment : Option String) :
    loadStandard files userDirectory root environment = (do
      let lower ← readLayer files (userDirectory.map userFile)
      let upper ← readLayer files (root.map projectFile)
      settle (merged lower upper) root environment) := by
  have hlayers : (userDirectory.map userFile).toList ++ (root.map projectFile).toList =
      (userDirectory.map userFile).toList ++ ((root.map projectFile).toList ++ []) := by
    rw [List.append_nil]
  unfold loadStandard
  dsimp only
  rw [hlayers, mergeFiles_append]
  simp only [mergeFiles_append, mergeFiles, bind_assoc]
  rfl

/-- What two layers say of a setting: the upper one when it names the setting, else the lower one
when that does, else what holds by default. -/
inductive Said {α : Type} (read : Toml.Value → Option α) (name : String) (other : α)
    (lower upper : Toml.Table) : α → Prop
  | upper {value : Toml.Value} {a : α} (h : Fields.get? name upper = some value)
      (hread : read value = some a) : Said read name other lower upper a
  | lower {value : Toml.Value} {a : α} (hu : Fields.get? name upper = none)
      (h : Fields.get? name lower = some value) (hread : read value = some a) :
      Said read name other lower upper a
  | neither (hu : Fields.get? name upper = none) (hl : Fields.get? name lower = none) :
      Said read name other lower upper other

lemma said_iff {α : Type} {read : Toml.Value → Option α} {name : String} {other a : α}
    {lower upper : Toml.Table} (hlower : Fields.Distinct lower) (hupper : Fields.Distinct upper) :
    entryOf? read name other (merged lower upper) = some a ↔
      Said read name other lower upper a := by
  rw [entryOf?, get?_merged name hlower hupper]
  constructor
  · intro h
    cases hu : Fields.get? name upper with
    | some value =>
      rw [hu] at h
      exact .upper hu h
    | none =>
      cases hl : Fields.get? name lower with
      | some value =>
        rw [hu, hl] at h
        exact .lower hu hl h
      | none =>
        rw [hu, hl] at h
        cases h
        exact .neither hu hl
  · rintro (⟨h, hread⟩ | ⟨hu, h, hread⟩ | ⟨hu, hl⟩)
    · rw [h]
      exact hread
    · rw [hu, h]
      exact hread
    · rw [hu, hl]
      rfl

/-- The backend that the environment names, when it names one, else what is said. -/
inductive Chosen (environment : Option String) (said : BackendKind) : BackendKind → Prop
  | unnamed (h : ∀ name, environment = some name → Text.isBlankText name = true) :
      Chosen environment said said
  | named {name : String} {kind : BackendKind} (h : environment = some name)
      (hblank : Text.isBlankText name = false) (hkind : BackendKind.ofUserName? name = .ok kind) :
      Chosen environment said kind

/-- What is said of the directory, placed in the root when there is one and it is relative. -/
inductive Placed (root : Option String) (said : String) : String → Prop
  | unchanged (h : root = none ∨ FilePath.isRelative said = false) : Placed root said said
  | joined {directory : String} (h : root = some directory)
      (hrelative : FilePath.isRelative said = true) :
      Placed root said (FilePath.join directory said)

/-- A configuration without faults whose settings are those that two layers, the environment and
the root of the project give. -/
structure SettledBy (lower upper : Toml.Table) (root environment : Option String)
    (config : Config) : Prop where
  backend : ∃ said, Said backendOfToml? "backend" default.backend lower upper said ∧
    Chosen environment said config.backend
  cacheDir : ∃ said, Said textOfToml? "cache_dir" default.cacheDir lower upper said ∧
    Placed root said config.cacheDir
  snapshotFile :
    Said textOfToml? "snapshot_file" default.snapshotFile lower upper config.snapshotFile
  sqliteFile : Said textOfToml? "sqlite_file" default.sqliteFile lower upper config.sqliteFile
  prettySnapshot :
    Said flagOfToml? "pretty_snapshot" default.prettySnapshot lower upper config.prettySnapshot
  valid : config.fault? = none

lemma ofTable?_eq_some_iff {table : Toml.Table} {config : Config} :
    ofTable? table = some config ↔
      entryOf? backendOfToml? "backend" default.backend table = some config.backend ∧
      entryOf? textOfToml? "cache_dir" default.cacheDir table = some config.cacheDir ∧
      entryOf? textOfToml? "snapshot_file" default.snapshotFile table =
        some config.snapshotFile ∧
      entryOf? textOfToml? "sqlite_file" default.sqliteFile table = some config.sqliteFile ∧
      entryOf? flagOfToml? "pretty_snapshot" default.prettySnapshot table =
        some config.prettySnapshot := by
  simp only [ofTable?, bind, Option.bind_eq_some_iff]
  constructor
  · rintro ⟨backend, hb, cacheDir, hc, snapshotFile, hsn, sqliteFile, hsq, pretty, hp, heq⟩
    cases heq
    exact ⟨hb, hc, hsn, hsq, hp⟩
  · rintro ⟨hb, hc, hsn, hsq, hp⟩
    exact ⟨_, hb, _, hc, _, hsn, _, hsq, _, hp, rfl⟩

lemma ofTable_eq_ok_iff {table : Toml.Table} {config : Config} :
    ofTable table = .ok config ↔ ofTable? table = some config := by
  rw [ofTable]
  cases ofTable? table <;> simp

lemma overrideBackend_eq_ok_iff {config chosen : Config} {environment : Option String} :
    config.overrideBackend environment = .ok chosen ↔
      ∃ kind, Chosen environment config.backend kind ∧
        chosen = { config with backend := kind } := by
  constructor
  · intro h
    rw [overrideBackend] at h
    split at h
    · rename_i hnone
      cases h
      refine ⟨_, .unnamed ?_, rfl⟩
      rintro name rfl
      simpa [Option.filter] using hnone
    · rename_i name hname
      obtain ⟨henvironment, hblank⟩ := Option.filter_eq_some_iff.mp hname
      obtain ⟨kind, hkind, rfl⟩ := map_eq_ok_iff.mp h
      exact ⟨kind, .named henvironment (by simpa using hblank) hkind, rfl⟩
  · rintro ⟨kind, hblank | ⟨rfl, hblank, hkind⟩, rfl⟩
    · have hnone : environment.filter (fun name => !Text.isBlankText name) = none := by
        cases environment with
        | none => rfl
        | some name => simp [hblank name rfl]
      rw [overrideBackend, hnone]
    · rename_i name
      have hsome : (some name).filter (fun name => !Text.isBlankText name) = some name := by
        simp [hblank]
      rw [overrideBackend, hsome]
      exact map_eq_ok_iff.mpr ⟨kind, hkind, rfl⟩

lemma placedIn_eq_iff {config placed : Config} {root : Option String} :
    config.placedIn root = placed ↔
      ∃ directory, Placed root config.cacheDir directory ∧
        placed = { config with cacheDir := directory } := by
  constructor
  · rintro rfl
    cases root with
    | none => exact ⟨_, .unchanged (.inl rfl), rfl⟩
    | some root =>
      rw [placedIn]
      split
      · rename_i hrelative
        exact ⟨_, .joined rfl hrelative, rfl⟩
      · rename_i habsolute
        exact ⟨_, .unchanged (.inr (Bool.not_eq_true _ ▸ habsolute)), rfl⟩
  · rintro ⟨directory, (rfl | habsolute) | ⟨rfl, hrelative⟩, rfl⟩
    · rfl
    · cases root with
      | none => rfl
      | some root => rw [placedIn, if_neg (by simp [habsolute])]
    · rw [placedIn, if_pos hrelative]

lemma validated_eq_ok_iff {config accepted : Config} :
    config.validated = .ok accepted ↔ config = accepted ∧ config.fault? = none := by
  rw [validated]
  cases config.fault? <;> simp

lemma settle_eq_ok_iff {lower upper : Toml.Table} (hlower : Fields.Distinct lower)
    (hupper : Fields.Distinct upper) {root environment : Option String} {config : Config} :
    settle (merged lower upper) root environment = .ok config ↔
      SettledBy lower upper root environment config := by
  constructor
  · intro h
    obtain ⟨typed, htyped, h⟩ := bind_eq_ok_iff.mp h
    obtain ⟨chosen, hchosen, h⟩ := bind_eq_ok_iff.mp h
    obtain ⟨hplaced, hvalid⟩ := validated_eq_ok_iff.mp h
    obtain ⟨hb, hc, hsn, hsq, hp⟩ := ofTable?_eq_some_iff.mp (ofTable_eq_ok_iff.mp htyped)
    obtain ⟨kind, hkind, rfl⟩ := overrideBackend_eq_ok_iff.mp hchosen
    obtain ⟨directory, hdirectory, rfl⟩ := placedIn_eq_iff.mp hplaced
    rw [hplaced] at hvalid
    exact ⟨⟨_, (said_iff hlower hupper).mp hb, hkind⟩,
      ⟨_, (said_iff hlower hupper).mp hc, hdirectory⟩, (said_iff hlower hupper).mp hsn,
      (said_iff hlower hupper).mp hsq, (said_iff hlower hupper).mp hp, hvalid⟩
  · rintro ⟨⟨kind, hb, hkind⟩, ⟨directory, hc, hdirectory⟩, hsn, hsq, hp, hvalid⟩
    let typed : Config := { config with backend := kind, cacheDir := directory }
    have htyped : ofTable (merged lower upper) = .ok typed :=
      ofTable_eq_ok_iff.mpr <| ofTable?_eq_some_iff.mpr ⟨(said_iff hlower hupper).mpr hb,
        (said_iff hlower hupper).mpr hc, (said_iff hlower hupper).mpr hsn,
        (said_iff hlower hupper).mpr hsq, (said_iff hlower hupper).mpr hp⟩
    have hchosen : typed.overrideBackend environment =
        .ok { typed with backend := config.backend } :=
      overrideBackend_eq_ok_iff.mpr ⟨config.backend, hkind, rfl⟩
    have hplaced : placedIn root { typed with backend := config.backend } = config :=
      placedIn_eq_iff.mpr ⟨config.cacheDir, hdirectory, rfl⟩
    refine bind_eq_ok_iff.mpr ⟨_, htyped, bind_eq_ok_iff.mpr ⟨_, hchosen, ?_⟩⟩
    exact validated_eq_ok_iff.mpr ⟨hplaced, hplaced.symm ▸ hvalid⟩

def settingNames : List String :=
  ["backend", "cache_dir", "snapshot_file", "sqlite_file", "pretty_snapshot"]

/-- A value that is none of the setting of a name. -/
inductive IllTyped : String → Toml.Value → Prop
  | backend {value : Toml.Value} (h : backendOfToml? value = none) : IllTyped "backend" value
  | cacheDir {value : Toml.Value} (h : textOfToml? value = none) : IllTyped "cache_dir" value
  | snapshotFile {value : Toml.Value} (h : textOfToml? value = none) :
    IllTyped "snapshot_file" value
  | sqliteFile {value : Toml.Value} (h : textOfToml? value = none) : IllTyped "sqlite_file" value
  | prettySnapshot {value : Toml.Value} (h : flagOfToml? value = none) :
    IllTyped "pretty_snapshot" value

lemma entryOf?_ne_some {α : Type} {read : Toml.Value → Option α} {name : String} {other a : α}
    {table : Toml.Table} {value : Toml.Value} (h : Fields.get? name table = some value)
    (hread : read value = none) : entryOf? read name other table ≠ some a := by
  intro hentry
  rw [entryOf?, h] at hentry
  exact absurd (hread.symm.trans hentry) nofun

lemma ofTable_of_illTyped {name : String} {value : Toml.Value} {table : Toml.Table}
    (h : Fields.get? name table = some value) (hill : IllTyped name value) :
    ofTable table = .error .notToml := by
  have hnone : ofTable? table = none := by
    refine Option.eq_none_iff_forall_ne_some.mpr fun config hconfig => ?_
    obtain ⟨hb, hc, hsn, hsq, hp⟩ := ofTable?_eq_some_iff.mp hconfig
    cases hill with
    | backend hread => exact entryOf?_ne_some h hread hb
    | cacheDir hread => exact entryOf?_ne_some h hread hc
    | snapshotFile hread => exact entryOf?_ne_some h hread hsn
    | sqliteFile hread => exact entryOf?_ne_some h hread hsq
    | prettySnapshot hread => exact entryOf?_ne_some h hread hp
  rw [ofTable, hnone]

lemma settle_congr {table other : Toml.Table}
    (h : ∀ name ∈ settingNames, Fields.get? name table = Fields.get? name other)
    (root environment : Option String) :
    settle table root environment = settle other root environment := by
  simp only [settingNames, List.forall_mem_cons] at h
  obtain ⟨hb, hc, hsn, hsq, hp, -⟩ := h
  simp only [settle, ofTable, ofTable?, entryOf?, hb, hc, hsn, hsq, hp]

/-! ## The configuration of a project -/

lemma loadStandard_of_layers {files : FileTree} {userDirectory root : Option String}
    {lower upper : Toml.Table} (hlower : Layer files (userDirectory.map userFile) lower)
    (hupper : Layer files (root.map projectFile) upper) (environment : Option String) :
    loadStandard files userDirectory root environment =
      settle (merged lower upper) root environment := by
  rw [loadStandard_eq, readLayer_eq_ok_iff.mpr hlower, readLayer_eq_ok_iff.mpr hupper]
  rfl

lemma loadStandard_eq_ok_iff {files : FileTree} {userDirectory root environment : Option String}
    {config : Config} :
    loadStandard files userDirectory root environment = .ok config ↔
      ∃ lower upper, Layer files (userDirectory.map userFile) lower ∧
        Layer files (root.map projectFile) upper ∧
        SettledBy lower upper root environment config := by
  constructor
  · intro h
    rw [loadStandard_eq] at h
    obtain ⟨lower, hread, h⟩ := bind_eq_ok_iff.mp h
    obtain ⟨upper, hreadUpper, h⟩ := bind_eq_ok_iff.mp h
    have hlower := readLayer_eq_ok_iff.mp hread
    have hupper := readLayer_eq_ok_iff.mp hreadUpper
    exact ⟨lower, upper, hlower, hupper,
      (settle_eq_ok_iff (distinct_of_layer hlower) (distinct_of_layer hupper)).mp h⟩
  · rintro ⟨lower, upper, hlower, hupper, hsettled⟩
    rw [loadStandard_of_layers hlower hupper]
    exact (settle_eq_ok_iff (distinct_of_layer hlower) (distinct_of_layer hupper)).mpr hsettled

lemma exists_error_of_ne_ok {ε α : Type} {result : Except ε α} (h : ∀ answer, result ≠ .ok answer) :
    ∃ error, result = .error error := by
  cases result with
  | error error => exact ⟨error, rfl⟩
  | ok answer => exact absurd rfl (h answer)

variable {files others : FileTree} {userDirectory root environment : Option String}
  {lower upper lower' upper' : Toml.Table}

lemma exists_error_of_untaken {path s : String}
    (hpath : userDirectory.map userFile = some path ∨ root.map projectFile = some path)
    (htext : files.readText path = .ok s)
    (hnone : (Toml.Table.ofText? s).bind Toml.Table.textual? = none) :
    ∃ fault, loadStandard files userDirectory root environment = .error fault := by
  refine exists_error_of_ne_ok fun config hconfig => ?_
  obtain ⟨lower, upper, hlower, hupper, -⟩ := loadStandard_eq_ok_iff.mp hconfig
  have htaken : ∃ table, Layer files (some path) table := by
    rcases hpath with hpath | hpath
    · exact ⟨lower, hpath ▸ hlower⟩
    · exact ⟨upper, hpath ▸ hupper⟩
  obtain ⟨table, htable⟩ := htaken
  rw [layerOfText_eq_ok_iff.mp (layerOfText_of_layer htable htext)] at hnone
  cases hnone

lemma loadStandard_of_illTyped (hlower : Layer files (userDirectory.map userFile) lower)
    (hupper : Layer files (root.map projectFile) upper) {name : String} {value : Toml.Value}
    (hvalue : (Fields.get? name upper).or (Fields.get? name lower) = some value)
    (hill : IllTyped name value) :
    loadStandard files userDirectory root environment = .error .notToml := by
  have hget : Fields.get? name (merged lower upper) = some value :=
    (get?_merged name (distinct_of_layer hlower) (distinct_of_layer hupper)).trans hvalue
  rw [loadStandard_of_layers hlower hupper, settle, ofTable_of_illTyped hget hill]
  rfl

lemma exists_error_of_unknownBackend {name : String} (henvironment : environment = some name)
    (hblank : Text.isBlankText name = false)
    (hunknown : ∀ kind, BackendKind.ofUserName? name ≠ .ok kind) :
    ∃ fault, loadStandard files userDirectory root environment = .error fault := by
  refine exists_error_of_ne_ok fun config hconfig => ?_
  obtain ⟨lower, upper, -, -, hsettled⟩ := loadStandard_eq_ok_iff.mp hconfig
  obtain ⟨said, -, hchosen⟩ := hsettled.backend
  cases hchosen with
  | unnamed hall =>
    rw [hall name henvironment] at hblank
    cases hblank
  | named hother _ hkind =>
    rw [henvironment] at hother
    cases hother
    exact hunknown _ hkind

lemma loadStandard_congr (hlower : Layer files (userDirectory.map userFile) lower)
    (hupper : Layer files (root.map projectFile) upper)
    (hlower' : Layer others (userDirectory.map userFile) lower')
    (hupper' : Layer others (root.map projectFile) upper')
    (hsame : ∀ name ∈ settingNames, (Fields.get? name upper).or (Fields.get? name lower) =
      (Fields.get? name upper').or (Fields.get? name lower')) :
    loadStandard files userDirectory root environment =
      loadStandard others userDirectory root environment := by
  have hmerged : ∀ name ∈ settingNames, Fields.get? name (merged lower upper) =
      Fields.get? name (merged lower' upper') := by
    intro name hname
    rw [get?_merged name (distinct_of_layer hlower) (distinct_of_layer hupper),
      get?_merged name (distinct_of_layer hlower') (distinct_of_layer hupper'), hsame name hname]
  calc loadStandard files userDirectory root environment
      = settle (merged lower upper) root environment :=
        loadStandard_of_layers hlower hupper environment
    _ = settle (merged lower' upper') root environment := settle_congr hmerged root environment
    _ = loadStandard others userDirectory root environment :=
        (loadStandard_of_layers hlower' hupper' environment).symm

/-- How a configuration is loaded from its layers. A layer whose text the reader does not take, a
wrong value that no upper layer hides and an unknown name of a backend in the environment are
errors; what an upper layer hides and what is no setting do not matter. -/
structure LoadsLayers (files : FileTree) (userDirectory root environment : Option String) :
    Prop where
  settled : ∀ config, loadStandard files userDirectory root environment = .ok config ↔
    ∃ lower upper, Layer files (userDirectory.map userFile) lower ∧
      Layer files (root.map projectFile) upper ∧ SettledBy lower upper root environment config
  untaken : ∀ path s, userDirectory.map userFile = some path ∨ root.map projectFile = some path →
    files.readText path = .ok s → (Toml.Table.ofText? s).bind Toml.Table.textual? = none →
      ∃ fault, loadStandard files userDirectory root environment = .error fault
  illTyped : ∀ lower upper name value, Layer files (userDirectory.map userFile) lower →
    Layer files (root.map projectFile) upper →
    (Fields.get? name upper).or (Fields.get? name lower) = some value → IllTyped name value →
      loadStandard files userDirectory root environment = .error .notToml
  unknownBackend : ∀ name, environment = some name → Text.isBlankText name = false →
    (∀ kind, BackendKind.ofUserName? name ≠ .ok kind) →
      ∃ fault, loadStandard files userDirectory root environment = .error fault
  settingsOnly : ∀ others lower upper lower' upper',
    Layer files (userDirectory.map userFile) lower → Layer files (root.map projectFile) upper →
    Layer others (userDirectory.map userFile) lower' → Layer others (root.map projectFile) upper' →
    (∀ name ∈ settingNames, (Fields.get? name upper).or (Fields.get? name lower) =
      (Fields.get? name upper').or (Fields.get? name lower')) →
      loadStandard files userDirectory root environment =
        loadStandard others userDirectory root environment

/-- A configuration is loaded exactly when its layers are there or absent and settle it. -/
theorem loadStandard_layered (files : FileTree) (userDirectory root environment : Option String) :
    LoadsLayers files userDirectory root environment where
  settled := fun _ => loadStandard_eq_ok_iff
  untaken := fun _ _ => exists_error_of_untaken
  illTyped := fun _ _ _ _ hlower hupper => loadStandard_of_illTyped hlower hupper
  unknownBackend := fun _ => exists_error_of_unknownBackend
  settingsOnly := fun _ _ _ _ _ => loadStandard_congr

/-- The tree with the user's file below `u` and the project's file below `p`, where there is one. -/
def layeredTree (user project : Option String) : FileTree :=
  let bare := [["u"], ["u", "registry-store"], ["p"]].foldl
    (fun tree place => tree.put place .directory) (FileTree.empty "/w")
  let layers :=
    [(["u", "registry-store", "config.toml"], user), (["p", ".registry-store.toml"], project)]
  layers.foldl (fun tree layer =>
    match layer.2 with
    | some s => tree.put layer.1 (.file (.text s))
    | none => tree) bare

/-- The project's backend hides a wrong one of the user, which is an error alone. A text that is no
TOML and an unknown backend in the environment are errors in any case. -/
theorem loadStandard_wrong_user_backend :
    let user := some "backend = \"mongo\"\nz = \"x\"\n"
    let project := some "backend = \"sqlite\"\n"
    let load := fun files environment => loadStandard files (some "u") (some "p") environment
    load (layeredTree user project) none = .ok ⟨.sqlite, "p/.cache", "localdb.json",
      "registry.sqlite", true⟩ ∧
    load (layeredTree user project) none = load (layeredTree none project) none ∧
    load (layeredTree user none) none = .error .notToml ∧
    (∃ fault, load (layeredTree (some "x") project) none = .error fault) ∧
    ∃ fault, load (layeredTree user project) (some "mongo") = .error fault := by
  intro user project load
  have huser : layerOfText "backend = \"mongo\"\nz = \"x\"\n" =
      .ok [("backend", .string "mongo"), ("z", .string "x")] := by
    have htext : textOfSettings [("backend", "mongo"), ("z", "x")] =
      "backend = \"mongo\"\nz = \"x\"\n" := by decide +kernel
    exact htext ▸ layerOfText_textOfSettings (by decide) (by decide)
  have hproject : layerOfText "backend = \"sqlite\"\n" =
      .ok [("backend", .string "sqlite")] := by
    have htext : textOfSettings [("backend", "sqlite")] = "backend = \"sqlite\"\n" := by
      decide +kernel
    exact htext ▸ layerOfText_textOfSettings (by decide) (by decide)
  have hlower : Layer (layeredTree user project) (some (userFile "u"))
      [("backend", .string "mongo"), ("z", .string "x")] := .read (by decide +kernel) huser
  have hupper : Layer (layeredTree user project) (some (projectFile "p"))
      [("backend", .string "sqlite")] := .read (by decide +kernel) hproject
  have hnoLower : Layer (layeredTree none project) (some (userFile "u")) [] :=
    .absent (by decide +kernel)
  have hupperAlone : Layer (layeredTree none project) (some (projectFile "p"))
      [("backend", .string "sqlite")] := .read (by decide +kernel) hproject
  have hlowerAlone : Layer (layeredTree user none) (some (userFile "u"))
      [("backend", .string "mongo"), ("z", .string "x")] := .read (by decide +kernel) huser
  have hnoUpper : Layer (layeredTree user none) (some (projectFile "p")) [] :=
    .absent (by decide +kernel)
  have hsettled : SettledBy [("backend", .string "mongo"), ("z", .string "x")]
      [("backend", .string "sqlite")] (some "p") none
      ⟨.sqlite, "p/.cache", "localdb.json", "registry.sqlite", true⟩ :=
    { backend := ⟨.sqlite, .upper rfl (by decide +kernel), .unnamed nofun⟩
      cacheDir := ⟨".cache", .neither rfl rfl, .joined rfl (by decide +kernel)⟩
      snapshotFile := .neither rfl rfl
      sqliteFile := .neither rfl rfl
      prettySnapshot := .neither rfl rfl
      valid := by decide +kernel }
  refine ⟨?_, ?_, ?_, ?_, ?_⟩
  · exact ((loadStandard_layered _ _ _ _).settled _).mpr ⟨_, _, hlower, hupper, hsettled⟩
  · refine (loadStandard_layered _ _ _ _).settingsOnly _ _ _ _ _ hlower hupper hnoLower
      hupperAlone ?_
    simp [settingNames, Fields.get?]
  · exact (loadStandard_layered _ _ _ _).illTyped _ _ "backend" (.string "mongo") hlowerAlone
      hnoUpper rfl (.backend (by decide +kernel))
  · have hbroken : ((Toml.Table.ofText? "x").bind Toml.Table.textual?).isNone = true := by
      decide +kernel
    exact (loadStandard_layered _ _ _ _).untaken (userFile "u") "x" (.inl rfl) (by decide +kernel)
      (Option.isNone_iff_eq_none.mp hbroken)
  · refine (loadStandard_layered _ _ _ _).unknownBackend "mongo" rfl (by decide +kernel) ?_
    intro kind
    cases kind <;> decide +kernel

/-- A table with the key that stands for a date-time, and no date-time at it, is an error in a
layer: under a name that is no setting, and in the user's file under a setting that the project's
file says anew. So is an array that is nested deeper than the reader goes. -/
theorem loadStandard_layered_fails :
    let marked := "\x7b\"$__toml_private_datetime\" = \"x\"\x7d"
    let nested := String.ofList (List.replicate 80 '[' ++ List.replicate 80 ']')
    let load := fun user project =>
      loadStandard (layeredTree (some user) (some project)) (some "u") (some "p") none
    (Toml.Table.ofText? ("z = " ++ marked)).map (List.map Prod.fst) = some ["z"] ∧
    "z" ∉ settingNames ∧
    load "" "" = .ok ⟨.snapshot, "p/.cache", "localdb.json", "registry.sqlite", true⟩ ∧
    load ("z = " ++ marked) "" = .error .notToml ∧
    load "" "cache_dir = \"d\"" =
      .ok ⟨.snapshot, "p/d", "localdb.json", "registry.sqlite", true⟩ ∧
    load ("cache_dir = " ++ marked) "cache_dir = \"d\"" = .error .notToml ∧
    load ("z = " ++ nested) "" = .error .notToml := by
  refine ⟨?_, ?_, ?_, ?_, ?_, ?_, ?_⟩
  all_goals decide +kernel

end Config

end DocStore

import DocStore.Config.Json
import DocStore.Config.Toml
import DocStore.Proofs.ReadBack
import DocStore.Proofs.Toml.Lines

/-!
# Written configurations

A configuration is read back from its text, as TOML and as JSON, whatever characters its directory
and file names are made of (`Config.ofToml_toToml_and_ofJson_toJson`). As TOML it is five lines
(`Config.lines`), one for each setting.
-/

namespace DocStore

namespace Config

def textLine (key s : String) : Toml.Line :=
  ⟨key, tomlText s, .string s⟩

def lines (config : Config) : List Toml.Line :=
  [textLine "backend" config.backend.name, textLine "cache_dir" config.cacheDir,
    textLine "snapshot_file" config.snapshotFile, textLine "sqlite_file" config.sqliteFile,
    ⟨"pretty_snapshot", (if config.prettySnapshot then "true" else "false").toList,
      .bool config.prettySnapshot⟩]

lemma toToml_eq (config : Config) :
    config.toToml = String.ofList (config.lines.flatMap Toml.Line.written) := by
  simp [toToml, lines, textLine, tomlLine, Toml.Line.written]

lemma legible_textLine {key : String} (h : Toml.IsBareKey key) (s : String) :
    (textLine key s).Legible := by
  have htext := Toml.writesValue_string s.toList
  rw [String.ofList_toList] at htext
  exact ⟨h, htext⟩

lemma legible_lines (config : Config) : ∀ line ∈ config.lines, line.Legible := by
  simp only [lines, List.forall_mem_cons]
  refine ⟨?_, ?_, ?_, ?_, ?_, List.forall_mem_nil _⟩
  · exact legible_textLine (by decide) _
  · exact legible_textLine (by decide) _
  · exact legible_textLine (by decide) _
  · exact legible_textLine (by decide) _
  · have hkey : Toml.IsBareKey "pretty_snapshot" := by decide
    exact ⟨hkey, Toml.writesValue_bool _⟩

lemma ofText?_toToml (config : Config) :
    Toml.Table.ofText? config.toToml =
      some (config.lines.map fun line => (line.key, line.value)) := by
  rw [toToml_eq]
  exact Toml.Table.ofText?_lines config.legible_lines (by simp [lines, textLine])

lemma ofTable?_lines (config : Config) :
    ofTable? (config.lines.map fun line => (line.key, line.value)) = some config := by
  obtain ⟨backend, cacheDir, snapshotFile, sqliteFile, prettySnapshot⟩ := config
  cases backend <;> rfl

lemma ofToml_toToml (config : Config) : ofToml config.toToml = .ok config := by
  have htable : tableOfText config.toToml =
      .ok (config.lines.map fun line => (line.key, line.value)) := by
    rw [tableOfText, ofText?_toToml]
  have hconfig : ofTable (config.lines.map fun line => (line.key, line.value)) = .ok config := by
    rw [ofTable, ofTable?_lines]
  rw [ofToml, htable]
  exact hconfig

lemma ofJson_text {value : Value} {config : Config} (h : ofTree? value.tree = some config) :
    ofJson (value.text .pretty) = .ok config := by
  rw [ofJson, Value.ofText?_text_tree, Option.bind_some, h]

lemma ofJson_toJson (config : Config) : ofJson config.toJson = .ok config := by
  refine ofJson_text ?_
  obtain ⟨backend, cacheDir, snapshotFile, sqliteFile, prettySnapshot⟩ := config
  cases backend <;> rfl

/-- A configuration is read back from its text in either format. -/
theorem ofToml_toToml_and_ofJson_toJson (config : Config) :
    ofToml config.toToml = .ok config ∧ ofJson config.toJson = .ok config :=
  ⟨config.ofToml_toToml, config.ofJson_toJson⟩

end Config

end DocStore

import InteropBindings.Settings.Basic
import InteropBindings.Settings.Toml

/-!
# Reading settings

Settings are written as TOML. Every key may be left out, none may come twice, and no other key is known.
-/

namespace InteropBindings

namespace Settings

/-- Settings with one of them changed, or why the entry is none. -/
def set (s : Settings) : String × Toml.Value → Except String Settings
  | ("input_dir", .text t) => .ok { s with inputDir := some ⟨t⟩ }
  | ("output_dir", .text t) => .ok { s with outputDir := some ⟨t⟩ }
  | ("exclude", .texts ts) => .ok { s with exclude := ts }
  | ("aggregators", .flag b) => .ok { s with aggregators := b }
  | ("dry_run", .flag b) => .ok { s with dryRun := b }
  | (key, _) => .error ("no such setting: " ++ key)

/-- The settings in a text. -/
def ofToml (text : String) : Except Fault Settings :=
  match Toml.entries? text with
  | none => .error (.malformedSettings "not a list of settings")
  | some entries =>
    if (entries.map Prod.fst).Nodup then
      match entries.foldlM set {} with
      | .ok s => .ok s
      | .error reason => .error (.malformedSettings reason)
    else .error (.malformedSettings "a setting comes twice")

end Settings

end InteropBindings

import TeamDigest.Proofs.Config.Document
import TeamDigest.Proofs.Host.Changes
import TeamDigest.Proofs.Json.Kept
import TeamDigest.Run.Setup

/-!
# Configurations that are loaded

A configuration that stands in a file as it is written is the one that is loaded from the
file, or it is refused for what is wrong with it, and from its JSON it is read again as well
(`Config.loaded_as_written`).

## Strategy

Both notations keep the tree that is written (`Config.kept_toml`, `Json.read?_write`).  What a
notation gives back is alike to that tree, the decoder does not tell the two apart
(`Blind.config`), and from the tree it restores the configuration (`Config.restores`).  On a
machine the file is found where it was written (`FileTree.read_of_write`), and its bytes are
the text again.
-/

namespace TeamDigest

open Host

namespace Config

open Data

variable {c : Config} {write : Data → String} {read? : String → Option Data}

/-- In a notation that keeps it, the configuration is read as it is, in either form. -/
theorem decode_kept (omits : Bool) (hrange : c.InRange)
    (hkept : (c.encode.shown omits).Kept write read?) :
    (read? (write (c.encode.shown omits))).bind decode = some c := by
  obtain ⟨d, hread, halike⟩ := hkept
  calc (read? (write (c.encode.shown omits))).bind decode
      = decode d := by rw [hread]; rfl
    _ = decode (c.encode.shown omits) := (Blind.config halike).symm
    _ = some c := (c.restores hrange).decoded omits

/-- From its own text a configuration is read. -/
theorem decode_toText (hrange : c.InRange) : (Toml.read? c.toText).bind decode = some c :=
  decode_kept true hrange (c.kept_toml hrange)

/-- From its own text a configuration is taken exactly if it is valid. -/
theorem ofText_toText (hrange : c.InRange) : ofText c.toText = c.validate.map fun _ => c := by
  rw [ofText, decode_toText hrange]

/-- From its JSON a configuration is read. -/
theorem decode_json (hrange : c.InRange) :
    (Json.read? (Json.write c.encode).toList).bind decode = some c := by
  have hjson : c.encode.Kept Json.write fun s => Json.read? s.toList :=
    ⟨c.encode, Json.read?_write (c.encode_whole hrange), .refl _⟩
  have hdecoded := decode_kept false hrange hjson
  exact hdecoded

end Config

/-- What a machine reads as a configuration is what the text of the file gives. -/
theorem Run.readConfig_of_text {d : Desktop} {path text : String}
    (hthere : d.files.present d.working path = true)
    (hread : d.files.read d.working path = .ok text.toUTF8) :
    (Run.readConfig path).run Desktop.world d = (Config.ofText text, d) := by
  have hpresent : (Job.present path).run Desktop.world d = (.ok true, d) := by
    rw [← hthere]
    rfl
  have hbytes : (Job.read path).run Desktop.world d = (.ok (.ok text.toUTF8), d) := by
    rw [← hread]
    rfl
  have htext : (Run.readText path).run Desktop.world d = (.ok text, d) := by
    rw [Run.readText, Plan.run_bind_of_ok hbytes]
    change (Plan.ofOption _ (String.fromUTF8? text.toUTF8)).run Desktop.world d = _
    rw [fromUTF8?_toUTF8]
    rfl
  rw [Run.readConfig, Plan.run_bind_of_ok hpresent, if_pos rfl, Plan.run_bind_of_ok htext]
  cases Config.ofText text <;> rfl

theorem Config.loaded_as_written (c : Config) (hrange : c.InRange) (d : Desktop) (path : String)
    (files : FileTree) (hwritten : d.files.write d.working path c.toText.toUTF8 = .ok files) :
    (Toml.read? c.toText).bind decode = some c ∧
      (Json.read? (Json.write c.encode).toList).bind decode = some c ∧
      ofText c.toText = c.validate.map (fun _ => c) ∧
      (Run.readConfig path).run Desktop.world { d with files } =
        (c.validate.map fun _ => c, { d with files }) := by
  have htext : ofText c.toText = c.validate.map fun _ => c := ofText_toText hrange
  obtain ⟨hthere, hread⟩ := FileTree.read_of_write hwritten
  refine ⟨decode_toText hrange, decode_json hrange, htext, ?_⟩
  rw [← htext]
  exact Run.readConfig_of_text hthere hread

/-! ## One person with a project -/

namespace Config

/-- A team of one person with one project. -/
def solo : Config :=
  { standard with
    tracker := .linear none
    incidents := some ⟨none, ["P1", "P2"]⟩
    users := [⟨"1", "A", "a@example.com", none, none, none, true⟩]
    projects :=
      [⟨-5, "✨ \"Launch\"\n", none, [⟨"Plan", "https://example.com"⟩], some "1", false,
        ["L-1"]⟩] }

/-- A machine without files. -/
def bareMachine : Desktop where
  files := .root
  working := []
  stores := []
  layout := fun _ => []
  environment := []
  account := none
  time := ⟨1718366400, 0⟩
  network := fun _ => .error (.missing "network")
  output := ""
  notes := ""

/-- The files once the configuration stands at the root. -/
def soloFiles : FileTree := FileTree.root.put ["config.toml"] (.file solo.toText.toUTF8)

theorem inRange_solo : solo.InRange where
  timespanDays := by decide
  claudeMaxTokens := nofun
  storeLifetime := by decide
  projects := by
    rintro p hp
    obtain rfl := List.mem_singleton.mp hp
    exact ⟨by decide, by decide⟩

theorem write_at_root (content : ByteArray) :
    FileTree.root.write [] "config.toml" content =
      .ok (FileTree.root.put ["config.toml"] (.file content)) := by
  rfl

theorem solo_valid : solo.validate = .ok () := by
  decide +kernel

theorem solo_loaded_as_written :
    (Toml.read? solo.toText).bind decode = some solo ∧
      (Json.read? (Json.write solo.encode).toList).bind decode = some solo ∧
      (Run.readConfig "config.toml").run Desktop.world { bareMachine with files := soloFiles } =
        (.ok solo, { bareMachine with files := soloFiles }) := by
  obtain ⟨htoml, hjson, -, hloaded⟩ := loaded_as_written solo inRange_solo bareMachine
    "config.toml" soloFiles (write_at_root _)
  rw [solo_valid] at hloaded
  exact ⟨htoml, hjson, hloaded⟩

end Config

end TeamDigest

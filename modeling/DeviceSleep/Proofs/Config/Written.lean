import DeviceSleep.Config.Loading
import DeviceSleep.Config.Saving
import DeviceSleep.Proofs.Config.Renaming
import DeviceSleep.Proofs.Reading.Values
import DeviceSleep.Proofs.Toml.Lines
import DeviceSleep.Proofs.Toml.Sections

/-! The text of a configuration is read back as the configuration: the lines that were written, the
tables that they make, and the values of their fields. Nothing is asked of the configuration but that
its profiles are in order, as they always are. -/
namespace DeviceSleep
set_option autoImplicit false

open Toml

/-! ## Pins and profiles -/

namespace GpioEntry

def fields (entry : GpioEntry) : List (String × Tree) :=
  [("pin", .int entry.pin.toNat), ("trigger", .text entry.trigger.name)]

theorem read_fields (entry : GpioEntry) : read .file (.table entry.fields) = some entry := by
  have hpin : Fields.required entry.fields "pin" (Rules.file.natural? 0xFFFF) =
      some entry.pin.toNat := Rules.natural?_file (by have := entry.pin.toNat_lt; omega)
  have htrigger : Fields.withDefault entry.fields "trigger" .rising (Trigger.read .file) =
      some entry.trigger := Trigger.read_name entry.trigger
  show (Fields.required entry.fields "pin" (Rules.file.natural? 0xFFFF)).bind _ = _
  rw [hpin]
  show (Fields.withDefault entry.fields "trigger" .rising (Trigger.read .file)).bind _ = _
  rw [htrigger]
  show some (⟨UInt16.ofNat entry.pin.toNat, entry.trigger⟩ : GpioEntry) = _
  rw [UInt16.ofNat_toNat]

end GpioEntry

namespace Profile

/-- The fields as they are written, pins with a table of their own left out. -/
def fields (p : Profile) : List (String × Tree) :=
  [("mode", .text p.mode.name), ("wait_cloud", .bool p.waitCloud)] ++
    (if p.gpio.isEmpty then [("gpio", .list [])] else []) ++
    (match p.durationMs with
      | none => []
      | some ms => [("duration_ms", .int ms.toNat)]) ++
    [("networks", .list (p.networks.map .text)), ("radio_link", .bool p.radioLink)]

/-- A profile as a table with a list of pins. -/
def table (entry : String × Profile) : Table :=
  ⟨entry.1, entry.2.fields, entry.2.gpio.map GpioEntry.fields⟩

theorem names_fields (p : Profile) :
    p.fields.map Prod.fst = ["mode", "wait_cloud"] ++ (if p.gpio.isEmpty then ["gpio"] else []) ++
      (if p.durationMs.isSome then ["duration_ms"] else []) ++ ["networks", "radio_link"] := by
  obtain ⟨mode, waitCloud, gpio, durationMs, networks, radioLink⟩ := p
  cases gpio <;> cases durationMs <;> rfl

theorem plain_table (entry : String × Profile) : (table entry).Plain "gpio" := by
  obtain ⟨name, p⟩ := entry
  refine ⟨?_, ?_, ?_⟩
  · show (p.fields.map Prod.fst).Nodup
    rw [names_fields]
    cases p.gpio.isEmpty <;> cases p.durationMs.isSome <;> decide
  · intro element helement
    obtain ⟨pin, -, rfl⟩ := List.mem_map.mp helement
    show ["pin", "trigger"].Nodup
    decide
  · intro hsome
    have hgpio : p.gpio.isEmpty = false := by
      cases hp : p.gpio with
      | nil => exact absurd (congrArg (List.map GpioEntry.fields) hp) hsome
      | cons pin pins => rfl
    show "gpio" ∉ p.fields.map Prod.fst
    rw [names_fields, hgpio]
    cases p.durationMs.isSome <;> decide

/-- The whole table of a profile, its pins among the fields. -/
def entries (p : Profile) : List (String × Tree) :=
  p.fields ++ if p.gpio.isEmpty then [] else [("gpio", .list (p.gpio.map fun pin => .table pin.fields))]

theorem tree_table (entry : String × Profile) :
    (table entry).tree "gpio" = .table entry.2.entries := by
  rw [Table.tree, table, List.isEmpty_map, List.map_map]
  rfl

/-- Whatever is left out elsewhere, each field is found in its place. -/
theorem lookup_entries (p : Profile) :
    p.entries.lookup "mode" = some (.text p.mode.name) ∧
    p.entries.lookup "wait_cloud" = some (.bool p.waitCloud) ∧
    p.entries.lookup "gpio" = some (.list (p.gpio.map fun pin => .table pin.fields)) ∧
    p.entries.lookup "duration_ms" = (p.durationMs.map fun ms => .int ms.toNat) ∧
    p.entries.lookup "networks" = some (.list (p.networks.map .text)) ∧
    p.entries.lookup "radio_link" = some (.bool p.radioLink) := by
  obtain ⟨mode, waitCloud, gpio, durationMs, networks, radioLink⟩ := p
  cases gpio <;> cases durationMs <;> exact ⟨rfl, rfl, rfl, rfl, rfl, rfl⟩

theorem read_table (entry : String × Profile) :
    read .file ((table entry).tree "gpio") = some entry.2 := by
  obtain ⟨name, p⟩ := entry
  obtain ⟨hmode, hwait, hgpio, hduration, hnetworks, hlink⟩ := lookup_entries p
  have hmode : Fields.required p.entries "mode" (Mode.read .file) = some p.mode := by
    rw [Fields.required, hmode, Option.bind_some, Mode.read_name]
  have hwait : Fields.withDefault p.entries "wait_cloud" false Rules.file.bool? =
      some p.waitCloud := by
    rw [Fields.withDefault, hwait]
    rfl
  have hgpio : Fields.withDefault p.entries "gpio" [] (Tree.listOf? (GpioEntry.read .file)) =
      some p.gpio := by
    rw [Fields.withDefault, hgpio]
    exact Tree.listOf?_map GpioEntry.read_fields p.gpio
  have hduration : Fields.optional p.entries "duration_ms" .file (Rules.file.natural? 0xFFFFFFFF) =
      some (p.durationMs.map UInt32.toNat) := by
    rw [Fields.optional, hduration]
    cases p.durationMs with
    | none => rfl
    | some ms =>
      have hlimit : ms.toNat ≤ 0xFFFFFFFF := Nat.le_of_lt_succ ms.toNat_lt
      show (Rules.file.natural? 0xFFFFFFFF (.int ms.toNat)).map some = _
      rw [Rules.natural?_file hlimit]
      rfl
  have hnetworks : Fields.withDefault p.entries "networks" [] (Tree.listOf? Rules.file.text?) =
      some p.networks := by
    have htext : ∀ name, Rules.file.text? (.text name) = some name := fun _ => rfl
    rw [Fields.withDefault, hnetworks]
    exact Tree.listOf?_map htext p.networks
  have hlink : Fields.withDefault p.entries "radio_link" false Rules.file.bool? =
      some p.radioLink := by
    rw [Fields.withDefault, hlink]
    rfl
  have hms : (p.durationMs.map UInt32.toNat).map UInt32.ofNat = p.durationMs := by
    cases p.durationMs with
    | none => rfl
    | some ms => exact congrArg some UInt32.ofNat_toNat
  have hfields : Rules.file.fields? fieldNames (.table p.entries) = some p.entries := rfl
  rw [tree_table, read, hfields]
  simp only [Option.bind_eq_bind, Option.bind_some, hmode, hwait, hgpio, hduration, hnetworks, hlink,
    hms]
  rfl

end Profile

/-- Profiles in order are what their list makes. -/
theorem Profiles.Sorted.ofList_eq {ps : Profiles} (h : ps.Sorted) : Profiles.ofList ps = ps :=
  (Profiles.sorted_ofList ps).eq_of_perm h (Profiles.perm_ofList h.nodup)

/-! ## The configuration as a table -/

namespace Config

def fields (c : Config) : List (String × Tree) :=
  ("platform", .text c.platform) ::
    (match c.defaultProfile with
      | none => []
      | some name => [("default_profile", .text name)])

/-- The lines of a configuration. -/
def lines (c : Config) : List Line :=
  pairLines c.fields ++
    if c.profiles.isEmpty then [.header ["profiles"]]
    else (c.profiles.map Profile.table).flatMap (Table.lines "profiles" "gpio")

theorem names_fields (c : Config) : c.fields.map Prod.fst =
    "platform" :: if c.defaultProfile.isSome then ["default_profile"] else [] := by
  obtain ⟨platform, defaultProfile, profiles⟩ := c
  cases defaultProfile <;> rfl

/-- The whole table of a configuration. -/
def entries (c : Config) : List (String × Tree) :=
  c.fields ++ [("profiles", .table (c.profiles.map fun entry => (entry.1, .table entry.2.entries)))]

/-- The lines are put together as the table. -/
theorem assemble_lines {c : Config} (hsorted : c.profiles.Sorted) :
    (assemble c.lines).map Node.trees = some c.entries := by
  have hnodup : (c.fields.map Prod.fst).Nodup := by
    rw [names_fields]
    cases c.defaultProfile.isSome <;> decide
  have houter : "profiles" ∉ c.fields.map Prod.fst := by
    rw [names_fields]
    cases c.defaultProfile.isSome <;> decide
  rw [lines, entries]
  cases hempty : c.profiles.isEmpty with
  | true =>
    have hheaded : Headed [.header ["profiles"]] := nofun
    have hnone : (Node.values c.fields).lookup "profiles" = none := by
      refine List.lookup_eq_none_iff.mpr fun entry hentry => bne_iff_ne.mpr ?_
      intro heq
      rw [← Node.names_values, heq] at houter
      exact houter (List.mem_map_of_mem hentry)
    rw [if_pos rfl, assemble, sectionPairs_pairLines hheaded, Node.ofPairs_plainPairs hnodup,
      Option.bind_some, addSections_pairLines, addSections, Node.under, Node.openTable, hnone,
      List.isEmpty_iff.mp hempty]
    show some (Node.trees (Node.values c.fields ++ [("profiles", .table .header [])])) = _
    rw [Node.trees_append, Node.trees_values]
    rfl
  | false =>
    have hplain : ∀ table ∈ c.profiles.map Profile.table, table.Plain "gpio" := by
      intro table htable
      obtain ⟨entry, -, rfl⟩ := List.mem_map.mp htable
      exact Profile.plain_table entry
    have hnames : ((c.profiles.map Profile.table).map Table.name).Nodup := by
      rw [List.map_map]
      exact hsorted.nodup
    have htrees : (c.profiles.map Profile.table).map
        (fun table => (table.name, table.tree "gpio")) =
        c.profiles.map fun entry => (entry.1, .table entry.2.entries) := by
      rw [List.map_map]
      exact List.map_congr_left fun entry _ => congrArg _ (Profile.tree_table entry)
    rw [if_neg (by decide), Table.assemble_tables hnodup houter hplain hnames, Option.map_some,
      Node.trees_append, Node.trees_values, Table.held, List.isEmpty_map, List.isEmpty_map, hempty]
    show some (c.fields ++ Node.trees [("profiles", .table .passed _)]) = _
    rw [Node.trees, Node.trees, Node.tree, Node.trees_entries, htrees]

theorem readProfiles_entries {c : Config} (hsorted : c.profiles.Sorted) :
    readProfiles .file (.table (c.profiles.map fun entry => (entry.1, .table entry.2.entries))) =
      some c.profiles := by
  have hread : ((c.profiles.map fun entry => (entry.1, Tree.table entry.2.entries)).mapM fun entry =>
      (Profile.read .file entry.2).map fun p => (entry.1, p)) = some c.profiles := by
    refine mapM_map_eq_some fun entry _ => ?_
    have hentry := Profile.read_table entry
    rw [Profile.tree_table] at hentry
    dsimp only
    rw [hentry]
    rfl
  show (((c.profiles.map fun entry => (entry.1, Tree.table entry.2.entries)).mapM fun entry =>
      (Profile.read .file entry.2).map fun p => (entry.1, p)).bind fun profiles =>
        some (Profiles.ofList profiles)) = _
  rw [hread, Option.bind_some, hsorted.ofList_eq]

theorem read_entries {c : Config} (hsorted : c.profiles.Sorted) :
    read .file (.table c.entries) = some c := by
  have hlookup : c.entries.lookup "platform" = some (.text c.platform) ∧
      c.entries.lookup "default_profile" = c.defaultProfile.map .text ∧
      c.entries.lookup "profiles" =
        some (.table (c.profiles.map fun entry => (entry.1, .table entry.2.entries))) := by
    obtain ⟨platform, defaultProfile, profiles⟩ := c
    cases defaultProfile <;> exact ⟨rfl, rfl, rfl⟩
  obtain ⟨hplatform, hdefault, hprofiles⟩ := hlookup
  refine read_eq_some_iff.mpr ⟨c.entries, rfl, ?_, ?_, ?_⟩
  · rw [Fields.withDefault, hplatform]
    rfl
  · rw [Fields.optional, hdefault]
    cases c.defaultProfile <;> rfl
  · rw [Fields.withDefault, hprofiles]
    exact readProfiles_entries hsorted

end Config

/-! ## The text -/

theorem reads_string (s : String) : Reads (writeText s.toList) (.text s) := by
  have h := reads_text s.toList
  rwa [String.ofList_toList] at h

theorem reads_strings (l : List String) :
    Reads (writeTexts (l.map String.toList)) (.list (l.map .text)) := by
  have h := reads_texts (l.map String.toList)
  rw [List.map_map] at h
  have hmap : (fun cs => Tree.text (String.ofList cs)) ∘ String.toList = Tree.text := by
    funext s
    exact congrArg Tree.text String.ofList_toList
  rwa [hmap] at h

theorem readsLines_opened (name : String) :
    ReadsLines ("\n[".toList ++ Profile.path name ++ "]\n".toList) [.header ["profiles", name]] := by
  have hheader : ReadsLines ('[' :: (writePath ["profiles".toList, name.toList] ++ [']', '\n']))
      [.header (["profiles".toList, name.toList].map String.ofList)] :=
    readsLines_header (List.cons_ne_nil _ _) (show 2 < nestingLimit by decide)
  have hpath : (["profiles".toList, name.toList].map String.ofList) = ["profiles", name] := by
    simp
  rw [hpath] at hheader
  exact readsLines_blank.append hheader

theorem readsLines_pin (name : String) (pin : GpioEntry) :
    ReadsLines (pin.render name) (.element ["profiles", name, "gpio"] :: pairLines pin.fields) := by
  have helement : ReadsLines
      ('[' :: '[' :: (writePath ["profiles".toList, name.toList, "gpio".toList] ++ [']', ']', '\n']))
      [.element (["profiles".toList, name.toList, "gpio".toList].map String.ofList)] :=
    readsLines_element (List.cons_ne_nil _ _) (show 3 < nestingLimit by decide)
  have hpath : ["profiles".toList, name.toList, "gpio".toList].map String.ofList =
      ["profiles", name, "gpio"] := by
    simp
  have hform : "\n[[".toList ++ Profile.path name ++ ".gpio]]\n".toList = ['\n'] ++
      ('[' :: '[' :: (writePath ["profiles".toList, name.toList, "gpio".toList] ++ [']', ']', '\n'])) := by
    have hopen : "\n[[".toList = ['\n', '[', '['] := rfl
    have hclose : ".gpio]]\n".toList = '.' :: ("gpio".toList ++ [']', ']', '\n']) := rfl
    have hgpio : writeKey "gpio".toList = "gpio".toList := rfl
    have hname : Profile.path name = writeKey "profiles".toList ++ '.' :: writeKey name.toList := rfl
    rw [writePath, writePath, writePath, hgpio, hopen, hclose, hname]
    simp only [List.append_assoc, List.cons_append, List.nil_append]
  rw [hpath] at helement
  have hpin : ReadsLines (writePair "pin" (writeNat pin.pin.toNat))
      (pairLines [("pin", .int pin.pin.toNat)]) :=
    readsLines_pair (reads_nat (by have := pin.pin.toNat_lt; omega)) (by decide) (by decide)
  have htrigger : ReadsLines (writePair "trigger" (writeText pin.trigger.name.toList))
      (pairLines [("trigger", .text pin.trigger.name)]) :=
    readsLines_pair (reads_string pin.trigger.name) (by decide) (by decide)
  rw [GpioEntry.render, hform]
  exact ((readsLines_blank.append helement).append hpin).append htrigger

/-- The lines of a profile, one part behind the other as they are written. -/
theorem lines_table (name : String) (p : Profile) :
    (Profile.table (name, p)).lines "profiles" "gpio" =
      [.header ["profiles", name]] ++ pairLines [("mode", .text p.mode.name)] ++
        pairLines [("wait_cloud", .bool p.waitCloud)] ++
        pairLines (if p.gpio.isEmpty then [("gpio", .list [])] else []) ++
        pairLines (match p.durationMs with
          | none => []
          | some ms => [("duration_ms", .int ms.toNat)]) ++
        pairLines [("networks", .list (p.networks.map .text))] ++
        pairLines [("radio_link", .bool p.radioLink)] ++
        p.gpio.flatMap (fun pin => .element ["profiles", name, "gpio"] :: pairLines pin.fields) := by
  rw [Table.lines, Profile.table]
  dsimp only
  rw [Profile.fields, pairLines_append, pairLines_append, pairLines_append, List.flatMap_map]
  simp only [List.append_assoc]
  rfl

theorem readsLines_profile (entry : String × Profile) :
    ReadsLines (entry.2.render entry.1) ((Profile.table entry).lines "profiles" "gpio") := by
  obtain ⟨name, p⟩ := entry
  have hmode : ReadsLines (writePair "mode" (writeText p.mode.name.toList))
      (pairLines [("mode", .text p.mode.name)]) :=
    readsLines_pair (reads_string p.mode.name) (by decide) (by decide)
  have hwait : ReadsLines (writePair "wait_cloud" (writeBool p.waitCloud))
      (pairLines [("wait_cloud", .bool p.waitCloud)]) :=
    readsLines_pair (reads_bool p.waitCloud) (by decide) (by decide)
  have hgpio : ReadsLines (if p.gpio.isEmpty then writePair "gpio" (writeTexts []) else [])
      (pairLines (if p.gpio.isEmpty then [("gpio", .list [])] else [])) := by
    split
    · exact readsLines_pair (reads_texts []) (by decide) (by decide)
    · exact ReadsLines.nil
  have hduration : ReadsLines
      (match p.durationMs with
        | none => []
        | some ms => writePair "duration_ms" (writeNat ms.toNat))
      (pairLines (match p.durationMs with
        | none => []
        | some ms => [("duration_ms", .int ms.toNat)])) := by
    cases p.durationMs with
    | none => exact ReadsLines.nil
    | some ms =>
      have hms := ms.toNat_lt
      exact readsLines_pair (reads_nat (by omega)) (by decide) (by decide)
  have hnetworks : ReadsLines (writePair "networks" (writeTexts (p.networks.map String.toList)))
      (pairLines [("networks", .list (p.networks.map .text))]) :=
    readsLines_pair (reads_strings p.networks) (by decide) (by decide)
  have hpins := ReadsLines.flatMap (readsLines_pin name) p.gpio
  have hlink : ReadsLines (writePair "radio_link" (writeBool p.radioLink))
      (pairLines [("radio_link", .bool p.radioLink)]) :=
    readsLines_pair (reads_bool p.radioLink) (by decide) (by decide)
  have hbefore := (((readsLines_opened name).append hmode).append hwait).append hgpio
  have hbehind := ((hbefore.append hduration).append hnetworks).append hlink
  rw [lines_table]
  exact hbehind.append hpins

namespace Config

theorem readsLines_render (c : Config) : ReadsLines c.render c.lines := by
  have hplatform : ReadsLines (writePair "platform" (writeText c.platform.toList))
      (pairLines [("platform", .text c.platform)]) :=
    readsLines_pair (reads_string c.platform) (by decide) (by decide)
  have hdefault : ReadsLines
      (match c.defaultProfile with
        | none => []
        | some name => writePair "default_profile" (writeText name.toList))
      (pairLines (match c.defaultProfile with
        | none => []
        | some name => [("default_profile", .text name)])) := by
    cases c.defaultProfile with
    | none => exact ReadsLines.nil
    | some name => exact readsLines_pair (reads_string name) (by decide) (by decide)
  have hprofiles : ReadsLines
      (if c.profiles.isEmpty then "\n[profiles]\n".toList
        else c.profiles.flatMap fun entry => entry.2.render entry.1)
      (if c.profiles.isEmpty then [.header ["profiles"]]
        else (c.profiles.map Profile.table).flatMap (Table.lines "profiles" "gpio")) := by
    split
    · have hheader : ReadsLines ('[' :: (writePath ["profiles".toList] ++ [']', '\n']))
          [.header (["profiles".toList].map String.ofList)] :=
        readsLines_header (List.cons_ne_nil _ _) (by decide)
      exact readsLines_blank.append hheader
    · rw [List.flatMap_map]
      exact ReadsLines.flatMap readsLines_profile c.profiles
  exact (hplatform.append hdefault).append hprofiles

/-- The text of a configuration is read back as the configuration. -/
theorem ofText_text {c : Config} (hsorted : c.profiles.Sorted) : ofText c.text = .ok c := by
  have hlines : Toml.lines (c.render.length + 2) c.render = some c.lines := by
    obtain ⟨left, hleft, hread⟩ := readsLines_render c (c.render.length + 2) [] (Nat.le_refl _)
    obtain ⟨left, rfl⟩ := Nat.exists_eq_add_of_le' hleft
    rw [List.append_nil] at hread
    rw [hread]
    show (some []).map (c.lines ++ ·) = _
    rw [Option.map_some, List.append_nil]
  have hmark : afterMark c.text.toList = c.render := by
    rw [text, String.toList_ofList]
    rfl
  obtain ⟨entries, hentries, htrees⟩ := Option.map_eq_some_iff.mp (assemble_lines hsorted)
  have hparse : parse? c.text = some (.table c.entries) := by
    rw [parse?, hmark, hlines]
    show (assemble c.lines).bind _ = _
    rw [hentries, ← htrees]
    rfl
  rw [ofText, hparse, Option.bind_some, read_entries hsorted]

end Config

end DeviceSleep

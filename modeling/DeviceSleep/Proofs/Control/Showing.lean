import DeviceSleep.Proofs.Config.Collisions
import DeviceSleep.Proofs.Control.Reports
import DeviceSleep.Proofs.Control.Steps
import DeviceSleep.Proofs.Json.Unambiguous
import DeviceSleep.Proofs.Text.HexDump

/-! Showing a profile in one format or the other. Both formats are made of the same request, so that they
fail alike; and where they do not, the report and the image behind the dump say the same. -/
namespace DeviceSleep.Control
set_option autoImplicit false

variable {has : Capabilities} {disk : Disk} {c : Config} {name : Option String}

/-- A shown profile is the text of the request that was built. -/
theorem showProfile_of_ok {selected : String} {b : Builder} {format : Format}
    (h : (buildProfile has c name).1 = .ok (selected, b)) :
    (showProfile has c name format).1 = .ok (showText has selected b format ++ ['\n']) := by
  unfold showProfile
  rw [Run.andThen_of_ok h]
  rfl

/-- Without a request nothing is shown in any format. -/
theorem showProfile_of_error {trouble : Trouble} (h : (buildProfile has c name).1 = .error trouble)
    (format : Format) : (showProfile has c name format).1 = .error trouble :=
  Run.andThen_of_error h _

/-- The marks of a dump are the digits of the image. -/
theorem bytes?_hexText (has : Capabilities) (selected : String) (b : Builder) :
    Text.bytes? ((showText has selected b .hex ++ ['\n']).filter Text.isMark) =
      some b.descriptor.encode := by
  rw [List.filter_append, showText, Text.HexDump.filter_render,
    List.filter_cons_of_neg (by decide), List.filter_nil, List.append_nil, Text.bytes?_hexPlain]

/-- The text of a report determines the report. -/
theorem report_eq_of_jsonText {selected : String} {b : Builder} {report : Json}
    (h : report.pretty 0 ++ ['\n'] = showText has selected b .json ++ ['\n']) :
    report = b.report has selected :=
  Json.pretty_inj (List.append_cancel_right h)

theorem descriptor_report (has : Capabilities) (selected : String) (b : Builder) :
    (b.report has selected).field? "descriptor" Shown.ofJson? = some b.descriptor.shown := by
  have hdescriptor := b.descriptor.ofJson?_json
  simp [Builder.report, Json.field?_of_ne, hdescriptor]

/-- What comes of showing a profile in a format. -/
def showing (has : Capabilities) (disk : Disk) (environment : Environment)
    (config platform name : Option String) (format : Format) : Except Trouble (List Char) :=
  (execute has disk environment ⟨config, platform, .showProfile name format⟩).1

/-- Both formats fail for the same reason or not at all; and then the JSON text is that of one report
only, the digits of the dump are the bytes of an image, and the two say the same of the request. -/
theorem formats_agree {environment : Environment} {config platform : Option String}
    (hload : (loadConfig disk environment config).1 = .ok c) :
    (∀ trouble, showing has disk environment config platform name .json = .error trouble ↔
      showing has disk environment config platform name .hex = .error trouble) ∧
    ∀ json hex, showing has disk environment config platform name .json = .ok json →
      showing has disk environment config platform name .hex = .ok hex →
      ∃ report content bytes view,
        (∀ j : Json, j.pretty 0 ++ ['\n'] = json ↔ j = report) ∧
        report.field? "descriptor" Shown.ofJson? = some content ∧
        Text.bytes? (hex.filter Text.isMark) = some bytes ∧
        Image.View.parse bytes = .ok view ∧ Shown.ofView? view = some content := by
  have hshown : ∀ format, showing has disk environment config platform name format =
      (showProfile has c name format).1 := fun format => execute_of_loaded hload has
  simp only [hshown]
  -- Both formats start from the same build, and only what it gives is written differently.
  cases hbuild : (buildProfile has c name).1 with
  | error trouble =>
    simp only [showProfile_of_error hbuild]
    exact ⟨fun _ => trivial, fun _ _ => nofun⟩
  | ok made =>
    obtain ⟨selected, b⟩ := made
    obtain ⟨-, p, networks, -, -, -, rfl⟩ := buildProfile_eq_ok_iff.mp hbuild
    simp only [showProfile_of_ok hbuild]
    refine ⟨fun _ => iff_of_false nofun nofun, ?_⟩
    rintro json hex ⟨⟩ ⟨⟩
    obtain ⟨view, hparse, hview⟩ := Descriptor.ofView?_encode (p.sound_described networks)
    refine ⟨(p.described networks).report has selected, _, _, view,
      fun j => ⟨report_eq_of_jsonText, ?_⟩, descriptor_report has selected _,
      bytes?_hexText has selected _, hparse, hview⟩
    rintro rfl
    rfl

/-- A profile without a mode; its request is not valid, and is shown all the same. -/
def modelessNap : String := "[profiles.nap]\nmode = \"none\"\nwait_cloud = true\nduration_ms = 5\n"

def modelessDump : List Char :=
  ("10 00 01 00 00 00 00 00 01 00 00 00 0c 00 00 00\n" ++
    "04 00 01 00 0c 00 00 00 05 00 00 00\n").toList

def modelessImage : List UInt8 :=
  [16, 0, 1, 0, 0, 0, 0, 0, 1, 0, 0, 0, 12, 0, 0, 0, 4, 0, 1, 0, 12, 0, 0, 0, 5, 0, 0, 0]

theorem formats_agree_modelessNap :
    ∃ json report view,
      showing .bare (fun _ => .text modelessNap) ⟨[], .listed⟩ (some "sleep.toml") none
          (some "NAP") .json = .ok json ∧
      showing .bare (fun _ => .text modelessNap) ⟨[], .listed⟩ (some "sleep.toml") none
          (some "NAP") .hex = .ok modelessDump ∧
      Json.pretty 0 report ++ ['\n'] = json ∧ Image.View.parse modelessImage = .ok view ∧
      report.field? "descriptor" Shown.ofJson? = Shown.ofView? view := by
  have hload : (loadConfig (fun _ => .text modelessNap) ⟨[], .listed⟩ (some "sleep.toml")).1 =
      .ok ⟨"cellular", none, [("nap", ⟨.none, true, [], some 5, [], false⟩)]⟩ := by
    decide +kernel
  have hhex : showing .bare (fun _ => .text modelessNap) ⟨[], .listed⟩ (some "sleep.toml") none
      (some "NAP") .hex = .ok modelessDump := by
    decide +kernel
  have hdigits : Text.bytes? (modelessDump.filter Text.isMark) = some modelessImage := by
    decide +kernel
  obtain ⟨htrouble, hboth⟩ :=
    @formats_agree .bare _ _ (some "NAP") ⟨[], .listed⟩ (some "sleep.toml") none hload
  cases hjson : showing .bare (fun _ => .text modelessNap) ⟨[], .listed⟩ (some "sleep.toml") none
      (some "NAP") .json with
  | error trouble =>
    rw [htrouble trouble, hhex] at hjson
    cases hjson
  | ok json =>
    obtain ⟨report, content, bytes, view, hreport, hcontent, hbytes, hparse, hview⟩ :=
      hboth json modelessDump hjson hhex
    rw [hdigits] at hbytes
    cases hbytes
    exact ⟨json, report, view, rfl, hhex, (hreport report).mpr rfl, hparse,
      hcontent.trans hview.symm⟩

end DeviceSleep.Control

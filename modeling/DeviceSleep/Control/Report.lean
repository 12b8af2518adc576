import DeviceSleep.Hal
import DeviceSleep.Json.Printer

/-! What the command line shows of a request and of the end of a sleep, as JSON values. -/
namespace DeviceSleep
set_option autoImplicit false

namespace Payload

def fields : Payload → List (String × Json)
  | gpio pin trigger => [("pin", .num pin.toNat), ("mode", .text trigger.name)]
  | timer ms => [("ms", .num ms.toNat)]
  | network i => [("index", .num i.index.toNat)]
  | radioLink => []

/-- The kind comes first. -/
def json (p : Payload) : Json := .object (("kind", .text p.kind.name) :: p.fields)

end Payload

def Header.json (h : Header) : Json :=
  .object [("kind", .text h.kind.name), ("version", .num h.version.toNat),
    ("size", .num h.size.toNat)]

def Source.json (s : Source) : Json :=
  .object [("header", s.header.json), ("payload", s.payload.json)]

def Descriptor.json (d : Descriptor) : Json :=
  .object [("size", .num Descriptor.size.toNat), ("version", .num layoutVersion.toNat),
    ("mode", .text d.mode.name), ("flags", .text d.flags.text),
    ("wakeup_sources", .list (d.sources.sources.map Source.json))]

def WakeReason.json : WakeReason → Json
  | gpio pin => .object [("source", .text "gpio"), ("pin", .num pin.toNat)]
  | timer => .object [("source", .text "timer")]
  | network i => .object [("source", .text "network"), ("index", .num i.index.toNat)]
  | radioLink => .object [("source", .text "radio_link")]
  | unknown => .object [("source", .text "unknown")]

/-- The summary of a built profile, under the name by which it was asked for. -/
def Builder.report (has : Capabilities) (name : String) (b : Builder) : Json :=
  .object [("profile", .text name), ("valid", .bool b.valid),
    ("cloud_connection_must_persist", .bool (b.descriptor.cloudMustPersist has)),
    ("descriptor", b.descriptor.json)]

end DeviceSleep

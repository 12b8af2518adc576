import DeviceSleep.Builder

/-! Requests and records as one line of text that shows every field, for a person who looks into a
running device. -/
namespace DeviceSleep
set_option autoImplicit false

/-- A named group of fields. -/
def inspectFields (name : String) (fields : List (String × String)) : String :=
  name ++ " \x7b " ++ ", ".intercalate (fields.map fun f => f.1 ++ ": " ++ f.2) ++ " \x7d"

def Mode.inspect : Mode → String
  | none => "None"
  | stop => "Stop"
  | ultraLowPower => "UltraLowPower"
  | hibernate => "Hibernate"

def Trigger.inspect : Trigger → String
  | change => "Change"
  | rising => "Rising"
  | falling => "Falling"

def Kind.inspect : Kind → String
  | gpio => "Gpio"
  | timer => "Timer"
  | network => "Network"
  | radioLink => "RadioLink"

def Interface.inspect (i : Interface) : String := s!"NetworkInterfaceIndex({i.index.toNat})"

/-- The text of the flags, and a zero where they have none. -/
def Flags.inspect (f : Flags) : String :=
  "SleepFlags(" ++ (if f = empty then "0x0" else f.text) ++ ")"

def Payload.inspect : Payload → String
  | gpio pin trigger =>
    inspectFields "Gpio" [("pin", toString pin.toNat), ("mode", trigger.inspect)]
  | timer ms => inspectFields "Timer" [("ms", toString ms.toNat)]
  | network i => inspectFields "Network" [("index", i.inspect)]
  | radioLink => "RadioLink"

def Header.inspect (h : Header) : String :=
  inspectFields "WakeupSourceHeader"
    [("kind", h.kind.inspect), ("version", toString h.version.toNat),
     ("size", toString h.size.toNat)]

def Source.inspect (s : Source) : String :=
  inspectFields "WakeupSource" [("header", s.header.inspect), ("payload", s.payload.inspect)]

def Registry.inspect (r : Registry) : String :=
  "[" ++ ", ".intercalate (r.sources.map Source.inspect) ++ "]"

def Descriptor.inspect (d : Descriptor) : String :=
  inspectFields "SleepConfigDescriptor"
    [("size", toString size.toNat), ("version", toString layoutVersion.toNat),
     ("mode", d.mode.inspect), ("flags", d.flags.inspect),
     ("wakeup_sources", d.sources.inspect)]

def Builder.inspect (b : Builder) : String :=
  inspectFields "SleepConfiguration"
    [("config", b.descriptor.inspect), ("valid", if b.intact then "true" else "false")]

end DeviceSleep

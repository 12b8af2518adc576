import DeviceSleep.Capabilities
import DeviceSleep.Text.Numeral
import DeviceSleep.Text.Word

/-! Network interfaces: an index of one byte, six of which have names. -/
namespace DeviceSleep
set_option autoImplicit false

structure Interface where
  index : UInt8
deriving DecidableEq, Repr

namespace Interface

def loopback : Interface := ⟨1⟩
def mesh : Interface := ⟨2⟩
def ethernet : Interface := ⟨3⟩
def cellular : Interface := ⟨4⟩
def wifiStation : Interface := ⟨5⟩
def wifiAccessPoint : Interface := ⟨6⟩

/-- One name for each interface that has one. -/
def names : List (Interface × String) :=
  [(loopback, "loopback"), (mesh, "mesh"), (ethernet, "ethernet"), (cellular, "cellular"),
   (wifiStation, "wifi_sta"), (wifiAccessPoint, "wifi_ap")]

def name (i : Interface) : String := (names.lookup i).getD "unknown"

/-- The name and the index together. -/
def label (i : Interface) : String := s!"{i.name}({i.index.toNat})"

/-- The words that a person may write for an interface. -/
def words : List (String × Interface) :=
  [("loopback", loopback), ("lo", loopback), ("mesh", mesh), ("ethernet", ethernet),
   ("eth", ethernet), ("cellular", cellular), ("wifi", wifiStation), ("wifi_sta", wifiStation),
   ("wifi_ap", wifiAccessPoint)]

/-- A decimal index. -/
def ofNumeral? (cs : List Char) : Option Interface :=
  (Text.unsigned? 10 255 cs).map fun n => ⟨UInt8.ofNat n⟩

/-- Reads an interface by word or index, in any letter case and with blanks around it. -/
def parse? (s : String) : Option Interface :=
  let word := Text.folded s
  match words.lookup word with
  | some i => some i
  | none => ofNumeral? word.toList

/-- The interfaces over which a build can reach the cloud. -/
def compiledIn (has : Capabilities) : List Interface :=
  (if has.cellular then [cellular] else []) ++ (if has.wifi then [wifiStation] else []) ++
    (if has.mesh then [mesh] else []) ++ (if has.ethernet then [ethernet] else [])

def isCompiledIn (has : Capabilities) (i : Interface) : Bool := (compiledIn has).contains i

end Interface

end DeviceSleep

import DeviceSleep.Proofs.Image.Layout

/-! What one record says, whatever its kind and its bytes are. `Says` lists all that it can be: nothing,
one of two faults, or a payload, which the bytes behind those that its kind needs do not change. -/
namespace DeviceSleep
set_option autoImplicit false

open Bytes Image

/-! ## Codes -/

theorem Trigger.code_of_ofCode? {code : UInt8} {trigger : Trigger}
    (h : ofCode? code = some trigger) : trigger.code = code := by
  unfold ofCode? at h
  have hbeq := List.find?_some h
  exact eq_of_beq hbeq

theorem Trigger.ofCode?_eq_none_iff (code : UInt8) : ofCode? code = none ↔ 2 < code := by
  rw [UInt8.lt_iff_toNat_lt]
  show _ ↔ 2 < code.toNat
  constructor
  · intro h
    have hne : ∀ trigger : Trigger, code ≠ trigger.code := by
      rintro trigger rfl
      rw [ofCode?_code] at h
      cases h
    have h₀ : code.toNat ≠ 0 := fun h₀ => hne .change (UInt8.toNat_inj.mp h₀)
    have h₁ : code.toNat ≠ 1 := fun h₁ => hne .rising (UInt8.toNat_inj.mp h₁)
    have h₂ : code.toNat ≠ 2 := fun h₂ => hne .falling (UInt8.toNat_inj.mp h₂)
    omega
  · intro h
    rw [Option.eq_none_iff_forall_ne_some]
    intro trigger htrigger
    have hle : trigger.code.toNat ≤ 2 := by cases trigger <;> decide
    rw [code_of_ofCode? htrigger] at hle
    omega

theorem Kind.ofCode?_eq_some_iff {code : UInt16} {kind : Kind} :
    ofCode? code = some kind ↔ code = kind.code := by
  constructor
  · intro h
    unfold ofCode? at h
    have hbeq := List.find?_some h
    exact (eq_of_beq hbeq).symm
  · rintro rfl
    exact ofCode?_code kind

theorem Kind.ofCode?_eq_none_iff {code : UInt16} :
    ofCode? code = none ↔ ∀ kind : Kind, code ≠ kind.code := by
  rw [Option.eq_none_iff_forall_ne_some]
  simp only [ne_eq, ofCode?_eq_some_iff]

/-! ## Payloads -/

theorem Image.exists_bytes_of_le {bytes : List UInt8} (h : 4 ≤ bytes.length) :
    ∃ a b c d rest, bytes = a :: b :: c :: d :: rest := by
  rcases bytes with _ | ⟨a, _ | ⟨b, _ | ⟨c, _ | ⟨d, rest⟩⟩⟩⟩
  all_goals first | exact ⟨_, _, _, _, _, rfl⟩ | simp at h

namespace Payload

theorem exists_opens_timer {bytes : List UInt8} (h : 4 ≤ bytes.length) :
    ∃ ms, (timer ms).Opens bytes := by
  obtain ⟨a, b, c, d, rest, rfl⟩ := exists_bytes_of_le h
  refine ⟨word32 a b c d, ?_⟩
  have hopens := Opens.timer (word32 a b c d) rest
  rw [ofWord32_word32] at hopens
  exact hopens

theorem exists_opens_network {bytes : List UInt8} (h : 4 ≤ bytes.length) :
    ∃ i, (network i).Opens bytes := by
  obtain ⟨a, b, c, d, rest, rfl⟩ := exists_bytes_of_le h
  exact ⟨⟨a⟩, .network ⟨a⟩ b c d rest⟩

/-- The bytes of a pin begin with its payload if the third of them names a trigger. -/
theorem exists_opens_gpio {bytes : List UInt8} (h : 4 ≤ bytes.length) :
    ∃ third, bytes[2]? = some third ∧
      (third ≤ 2 → ∃ pin trigger, (gpio pin trigger).Opens bytes) := by
  obtain ⟨a, b, third, d, rest, rfl⟩ := exists_bytes_of_le h
  refine ⟨third, rfl, fun hle => ?_⟩
  have hsome : Trigger.ofCode? third ≠ none := by
    rw [ne_eq, Trigger.ofCode?_eq_none_iff]
    exact UInt8.not_lt.mpr hle
  obtain ⟨trigger, htrigger⟩ := Option.ne_none_iff_exists'.mp hsome
  refine ⟨word16 a b, trigger, ?_⟩
  have hopens := Opens.gpio (word16 a b) trigger d rest
  rw [ofWord16_word16, Trigger.code_of_ofCode? htrigger] at hopens
  exact hopens

/-- Bytes behind those that a payload needs do not count. -/
theorem Opens.take_append {p : Payload} {bytes : List UInt8} (h : p.Opens bytes)
    (extra : List UInt8) : p.Opens (bytes.take p.kind.payloadSize.toNat ++ extra) := by
  cases h with
  | gpio pin trigger reserved => exact .gpio pin trigger reserved extra
  | timer ms => exact .timer ms extra
  | network i r₁ r₂ r₃ => exact .network i r₁ r₂ r₃ extra
  | radioLink => exact .radioLink extra

end Payload

/-! ## Records -/

namespace Image

/-- All that a record can say. -/
inductive Says (r : RawRecord) : Except Fault (Option Payload) → Prop
  | nothing (code : ∀ kind : Kind, r.kind ≠ kind.code) : Says r (.ok none)
  | short {kind : Kind} (code : r.kind = kind.code)
    (length : r.payload.length < kind.payloadSize.toNat) :
    Says r (.error (.shortPayload kind r.payload.length))
  | unknownTrigger {third : UInt8} (code : r.kind = Kind.gpio.code)
    (length : 4 ≤ r.payload.length) (third_eq : r.payload[2]? = some third) (unknown : 2 < third) :
    Says r (.error (.unknownTrigger third))
  | payload {p : Payload} (code : r.kind = p.kind.code) (opens : p.Opens r.payload) :
    Says r (.ok (some p))

variable {r : RawRecord} {kind : Kind}

theorem decode_short (hcode : r.kind = kind.code)
    (h : r.payload.length < kind.payloadSize.toNat) :
    r.decode = .error (.shortPayload kind r.payload.length) := by
  unfold RawRecord.decode
  rw [hcode, Kind.ofCode?_code]
  cases kind with
  | radioLink => exact absurd h (Nat.not_lt_zero _)
  | _ =>
    dsimp only
    split
    · rename_i hbytes
      rw [hbytes] at h
      simp only [List.length_cons, Kind.payloadSize, UInt16.toNat_ofNat] at h
      omega
    · rfl

theorem decode_unknownTrigger {third : UInt8} (hcode : r.kind = Kind.gpio.code)
    (hlength : 4 ≤ r.payload.length) (hthird : r.payload[2]? = some third) (hunknown : 2 < third) :
    r.decode = .error (.unknownTrigger third) := by
  obtain ⟨a, b, c, d, rest, hbytes⟩ := exists_bytes_of_le hlength
  rw [hbytes] at hthird
  obtain rfl : c = third := Option.some.inj hthird
  unfold RawRecord.decode
  rw [hcode, Kind.ofCode?_code, hbytes]
  dsimp only
  rw [(Trigger.ofCode?_eq_none_iff c).mpr hunknown]

theorem Says.decode_eq {result : Except Fault (Option Payload)} (h : Says r result) :
    r.decode = result := by
  cases h with
  | nothing code =>
    unfold RawRecord.decode
    rw [Kind.ofCode?_eq_none_iff.mpr code]
  | short code length => exact decode_short code length
  | unknownTrigger code length third_eq unknown =>
    exact decode_unknownTrigger code length third_eq unknown
  | @payload p code opens =>
    obtain ⟨_, version, size, payload⟩ := r
    subst code
    exact decode_of_opens opens version size

/-- A record always says one of these. -/
theorem exists_says (r : RawRecord) : ∃ result, Says r result := by
  cases hkind : Kind.ofCode? r.kind with
  | none => exact ⟨_, .nothing (Kind.ofCode?_eq_none_iff.mp hkind)⟩
  | some kind =>
    have hcode : r.kind = kind.code := Kind.ofCode?_eq_some_iff.mp hkind
    by_cases hshort : r.payload.length < kind.payloadSize.toNat
    · exact ⟨_, .short hcode hshort⟩
    · have hlong : kind.payloadSize.toNat ≤ r.payload.length := Nat.le_of_not_lt hshort
      cases kind with
      | gpio =>
        obtain ⟨third, hthird, hopens⟩ := Payload.exists_opens_gpio hlong
        by_cases hunknown : 2 < third
        · exact ⟨_, .unknownTrigger hcode hlong hthird hunknown⟩
        · obtain ⟨pin, trigger, hopens⟩ := hopens (UInt8.not_lt.mp hunknown)
          exact ⟨_, .payload (p := .gpio pin trigger) hcode hopens⟩
      | timer =>
        obtain ⟨ms, hopens⟩ := Payload.exists_opens_timer hlong
        exact ⟨_, .payload (p := .timer ms) hcode hopens⟩
      | network =>
        obtain ⟨i, hopens⟩ := Payload.exists_opens_network hlong
        exact ⟨_, .payload (p := .network i) hcode hopens⟩
      | radioLink => exact ⟨_, .payload (p := .radioLink) hcode (.radioLink _)⟩

theorem says_iff {result : Except Fault (Option Payload)} : Says r result ↔ r.decode = result := by
  constructor
  · exact Says.decode_eq
  · rintro rfl
    obtain ⟨result, h⟩ := exists_says r
    rw [h.decode_eq]
    exact h

/-! ## When each is said -/

theorem decode_eq_none_iff : r.decode = .ok none ↔ ∀ kind : Kind, r.kind ≠ kind.code := by
  rw [← says_iff]
  constructor
  · rintro ⟨code⟩
    exact code
  · exact Says.nothing

theorem decode_eq_short_iff {length : Nat} :
    r.decode = .error (.shortPayload kind length) ↔
      r.kind = kind.code ∧ r.payload.length = length ∧ length < kind.payloadSize.toNat := by
  rw [← says_iff]
  constructor
  · intro h
    cases h with
    | short code length => exact ⟨code, rfl, length⟩
  · rintro ⟨code, rfl, length⟩
    exact .short code length

theorem decode_eq_unknownTrigger_iff {third : UInt8} :
    r.decode = .error (.unknownTrigger third) ↔
      r.kind = Kind.gpio.code ∧ 4 ≤ r.payload.length ∧ r.payload[2]? = some third ∧ 2 < third := by
  rw [← says_iff]
  constructor
  · intro h
    cases h with
    | unknownTrigger code length third_eq unknown => exact ⟨code, length, third_eq, unknown⟩
  · rintro ⟨code, length, third_eq, unknown⟩
    exact .unknownTrigger code length third_eq unknown

theorem decode_eq_some_iff {p : Payload} :
    r.decode = .ok (some p) ↔ r.kind = p.kind.code ∧ p.Opens r.payload := by
  rw [← says_iff]
  constructor
  · intro h
    cases h with
    | payload code opens => exact ⟨code, opens⟩
  · rintro ⟨code, opens⟩
    exact .payload code opens

/-- Records of one kind that begin with the same bytes, as many as the kind needs, say the same. -/
theorem decode_eq_of_take_eq {r r' : RawRecord} {p : Payload} (h : r.decode = .ok (some p))
    (hkind : r'.kind = r.kind)
    (htake : r'.payload.take p.kind.payloadSize.toNat = r.payload.take p.kind.payloadSize.toNat) :
    r'.decode = .ok (some p) := by
  obtain ⟨hcode, hopens⟩ := decode_eq_some_iff.mp h
  refine decode_eq_some_iff.mpr ⟨hkind.trans hcode, ?_⟩
  have hbytes := hopens.take_append (r'.payload.drop p.kind.payloadSize.toNat)
  rw [← htake, List.take_append_drop] at hbytes
  exact hbytes

end Image

end DeviceSleep

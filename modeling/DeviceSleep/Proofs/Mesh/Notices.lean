import DeviceSleep.Mesh
import Mathlib.Data.List.Nodup
import Mathlib.Data.Nat.Bitwise

/-! Which changes a notice tells of. Every declared change but three has a row in the table of
descriptions, in the order of the bits; the three come after them with the new state. So each declared
change is told once, bits that are not declared say nothing, and the descriptions of a union are those of
its parts, in the order of the table. -/
namespace DeviceSleep.Mesh
set_option autoImplicit false

open Changes

variable {c d : Changes} {n : Nat}

namespace Changes

/-! ## Single bits -/

theorem toNat_bit (h : n < 32) : (bit n).bits.toNat = 2 ^ n := by
  have hpow : 2 ^ n < 2 ^ 32 := Nat.pow_lt_pow_right (by decide) h
  have hsmall : n < 2 ^ 32 := by omega
  rw [bit, UInt32.toNat_shiftLeft, UInt32.toNat_ofNat_of_lt' hsmall, Nat.mod_eq_of_lt h,
    UInt32.toNat_one, Nat.one_shiftLeft, Nat.mod_eq_of_lt hpow]

theorem contains_bit (h : n < 32) (c : Changes) : c.contains (bit n) = c.bits.toNat.testBit n := by
  rw [Bool.eq_iff_iff, contains, beq_iff_eq, ← UInt32.toNat_inj, UInt32.toNat_and, toNat_bit h,
    Nat.and_two_pow]
  have hpos : 0 ≠ 2 ^ n := (Nat.two_pow_pos n).ne
  cases c.bits.toNat.testBit n with
  | true => simp
  | false => simpa using hpos

theorem testBit_union (c d : Changes) (n : Nat) :
    (c.union d).bits.toNat.testBit n = (c.bits.toNat.testBit n || d.bits.toNat.testBit n) := by
  simp [union]

/-! ## The tables -/

/-- The positions of the declared changes that have no state of their own, ascending. -/
def plain : List Nat :=
  (List.range 32).filter fun n =>
    declared.any (fun entry => entry.1 == bit n) && !([role, commissioner, joiner].contains (bit n))

/-- The positions of the others. -/
def stateful : List Nat := [2, 23, 24]

def description (n : Nat) : String := (descriptions.lookup (bit n)).getD ""

/-- No row is missing, repeated or in the wrong place. -/
theorem descriptions_eq : descriptions = plain.map fun n => (bit n, description n) := by
  decide +kernel

theorem nodup_texts : (plain.map description).Nodup := by
  decide +kernel

theorem declared_perm : (declared.map (·.1)).Perm ((plain ++ stateful).map bit) := by
  decide +kernel

theorem lt_of_mem : ∀ n ∈ plain ++ stateful, n < 32 := by
  decide +kernel

theorem testBit_mask : ∀ n ∈ plain ++ stateful, mask.bits.toNat.testBit n = true := by
  decide +kernel

/-! ## What is described -/

theorem describe_eq (c : Changes) :
    describe c = (plain.filter c.bits.toNat.testBit).map description := by
  have hbits : ∀ n ∈ plain, c.contains (bit n) = c.bits.toNat.testBit n := fun n hn =>
    contains_bit (lt_of_mem n (List.mem_append_left _ hn)) c
  rw [describe, pick, descriptions_eq, List.filter_map, List.map_map]
  exact congrArg (List.map description) (List.filter_congr hbits)

theorem description_mem_describe (h : n ∈ plain) :
    description n ∈ describe c ↔ c.bits.toNat.testBit n = true := by
  rw [describe_eq, List.mem_map]
  constructor
  · rintro ⟨m, hm, htext⟩
    obtain ⟨hplain, hbit⟩ := List.mem_filter.mp hm
    rwa [List.inj_on_of_nodup_map nodup_texts hplain h htext] at hbit
  · intro hbit
    exact ⟨n, List.mem_filter.mpr ⟨h, hbit⟩, rfl⟩

theorem nodup_describe (c : Changes) : (describe c).Nodup := by
  rw [describe_eq]
  exact nodup_texts.sublist (List.filter_sublist.map description)

/-- The descriptions of a union are the rows that one of its parts has. -/
theorem describe_union (c d : Changes) :
    describe (c.union d) =
      (descriptions.map (·.2)).filter fun text => text ∈ describe c ∨ text ∈ describe d := by
  have htexts : descriptions.map (·.2) = plain.map description := by
    rw [descriptions_eq, List.map_map]
    rfl
  rw [describe_eq, htexts, List.filter_map]
  refine congrArg (List.map description) (List.filter_congr fun n hn => ?_)
  rw [testBit_union, Bool.eq_iff_iff, Bool.or_eq_true, Function.comp_apply, decide_eq_true_iff,
    description_mem_describe hn, description_mem_describe hn]

theorem describe_sublist (h : ∀ n, c.bits.toNat.testBit n = true → d.bits.toNat.testBit n = true) :
    (describe c).Sublist (describe d) := by
  rw [describe_eq, describe_eq]
  exact (List.monotone_filter_right plain h).map description

end Changes

namespace Snapshot

/-! ## What is told with a state -/

/-- The new states by the positions of their changes. -/
def news (s : Snapshot) : List (Nat × String) :=
  [(2, "Role changed: " ++ s.role.name),
   (23, "Commissioner state changed: " ++ s.commissioner.name),
   (24, "Joiner state changed: " ++ s.joiner.name)]

theorem messages_eq (s : Snapshot) (c : Changes) :
    s.messages c = ((s.news.filter fun entry => c.bits.toNat.testBit entry.1).map (·.2)) := by
  have hrole : c.contains .role = c.bits.toNat.testBit 2 := contains_bit (by decide) c
  have hcommissioner : c.contains .commissioner = c.bits.toNat.testBit 23 :=
    contains_bit (by decide) c
  have hjoiner : c.contains .joiner = c.bits.toNat.testBit 24 := contains_bit (by decide) c
  rw [messages, hrole, hcommissioner, hjoiner, news]
  simp only [List.filter_cons, List.filter_nil]
  split <;> split <;> split <;> rfl

/-- The three texts begin with different letters. -/
theorem nodup_news (s : Snapshot) : (s.news.map (·.2)).Nodup := by
  have hhead : ∀ {a b : String}, a.toList.head? ≠ b.toList.head? → a ≠ b := fun h heq => h (heq ▸ rfl)
  simp only [news, List.map_cons, List.map_nil, List.nodup_cons, List.mem_cons, List.not_mem_nil,
    or_false, not_or, not_false_eq_true, List.nodup_nil, and_true]
  refine ⟨⟨hhead ?_, hhead ?_⟩, hhead ?_⟩ <;> simp

end Snapshot

/-! ## Notices -/

theorem length_notice (c : Changes) (s : Snapshot) :
    (notice c s).length = (plain ++ stateful).countP c.bits.toNat.testBit := by
  have hstateful : stateful = s.news.map (·.1) := rfl
  rw [notice, List.length_append, List.length_map, List.length_map, describe_eq, List.length_map,
    s.messages_eq, List.length_map, List.countP_append, hstateful, List.countP_map,
    List.countP_eq_length_filter, List.countP_eq_length_filter]
  rfl

theorem countP_declared (c : Changes) :
    declared.countP (fun entry => c.contains entry.1) =
      (plain ++ stateful).countP c.bits.toNat.testBit := by
  have hbits : ∀ n ∈ plain ++ stateful, c.contains (bit n) = true ↔ c.bits.toNat.testBit n = true :=
    fun n hn => by rw [contains_bit (lt_of_mem n hn)]
  calc declared.countP (fun entry => c.contains entry.1)
      = (declared.map (·.1)).countP c.contains := by
        rw [List.countP_map]
        rfl
    _ = ((plain ++ stateful).map bit).countP c.contains := declared_perm.countP_eq _
    _ = (plain ++ stateful).countP (c.contains ∘ bit) := List.countP_map
    _ = (plain ++ stateful).countP c.bits.toNat.testBit := List.countP_congr hbits

theorem nodup_notice (c : Changes) (s : Snapshot) : (notice c s).Nodup := by
  have hmessages : (s.messages c).Nodup := by
    rw [s.messages_eq]
    exact s.nodup_news.sublist (List.filter_sublist.map _)
  rw [notice, List.nodup_append]
  refine ⟨(nodup_describe c).map ?_, hmessages.map ?_, ?_⟩
  · intro a b h
    exact congrArg Event.text h
  · intro a b h
    exact congrArg Event.text h
  · intro a ha b hb heq
    obtain ⟨text, -, rfl⟩ := List.mem_map.mp ha
    obtain ⟨text', -, rfl⟩ := List.mem_map.mp hb
    exact absurd (congrArg Event.level heq) nofun

/-- Sets with the same declared bits are told alike. -/
theorem notice_congr (s : Snapshot)
    (h : ∀ n ∈ plain ++ stateful, c.bits.toNat.testBit n = d.bits.toNat.testBit n) :
    notice c s = notice d s := by
  have hplain : plain.filter c.bits.toNat.testBit = plain.filter d.bits.toNat.testBit :=
    List.filter_congr fun n hn => h n (List.mem_append_left _ hn)
  have hnews : s.news.filter (fun entry => c.bits.toNat.testBit entry.1) =
      s.news.filter fun entry => d.bits.toNat.testBit entry.1 :=
    List.filter_congr fun entry hentry => h entry.1
      (List.mem_append_right _ (List.mem_map_of_mem (f := (·.1)) hentry))
  rw [notice, notice, describe_eq, describe_eq, s.messages_eq, s.messages_eq, hplain, hnews]

/-- A notice tells of every declared change, once: first, in the order of the bits, of those without a
state of their own, and then of the role, the commissioner and the joiner with the new state. Bits that
are not declared do not matter. What is described of a union of two sets is what is described of either,
in the order of the table. -/
theorem notice_tells_each_change_once (c : Changes) (s : Snapshot) :
    descriptions = plain.map (fun n => (bit n, description n)) ∧
    notice c s =
      (plain.filter c.bits.toNat.testBit).map (fun n => ⟨.trace, .mesh, description n⟩) ++
        (s.news.filter fun entry => c.bits.toNat.testBit entry.1).map
          (fun entry => ⟨.info, .mesh, entry.2⟩) ∧
    (notice c s).Nodup ∧
    (notice c s).length = declared.countP (fun entry => c.contains entry.1) ∧
    notice ⟨c.bits &&& mask.bits⟩ s = notice c s ∧
    ∀ d : Changes,
      describe (c.union d) =
        (descriptions.map (·.2)).filter (fun text => text ∈ describe c ∨ text ∈ describe d) ∧
      (describe c).Sublist (describe (c.union d)) ∧
      (describe d).Sublist (describe (c.union d)) ∧ (describe (c.union d)).Nodup := by
  refine ⟨descriptions_eq, ?_, nodup_notice c s, ?_, ?_, fun d => ⟨describe_union c d, ?_, ?_, ?_⟩⟩
  · rw [notice, describe_eq, s.messages_eq, List.map_map, List.map_map]
    rfl
  · rw [length_notice, countP_declared]
  · refine notice_congr s fun n hn => ?_
    rw [UInt32.toNat_and, Nat.testBit_and, testBit_mask n hn, Bool.and_true]
  · exact describe_sublist fun n hn => by rw [testBit_union, hn, Bool.true_or]
  · exact describe_sublist fun n hn => by rw [testBit_union, hn, Bool.or_true]
  · exact nodup_describe _

/-- Two changes without a state, the role, the joiner, and a bit that is not declared. -/
example : (notice ⟨0x41000405⟩ ⟨.leader, .disabled, .joined⟩).map (·.text) =
    ["IPv6 address was added", "Child was added", "Role changed: leader",
      "Joiner state changed: joined"] := by
  decide +kernel

end DeviceSleep.Mesh

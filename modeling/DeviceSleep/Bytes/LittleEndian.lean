/-! Words of 16 and 32 bits as bytes, the least significant first. -/
namespace DeviceSleep.Bytes
set_option autoImplicit false

def ofWord16 (n : UInt16) : List UInt8 :=
  [UInt8.ofNat (n.toNat % 256), UInt8.ofNat (n.toNat / 256)]

def ofWord32 (n : UInt32) : List UInt8 :=
  [UInt8.ofNat (n.toNat % 256), UInt8.ofNat (n.toNat / 256 % 256),
    UInt8.ofNat (n.toNat / 65536 % 256), UInt8.ofNat (n.toNat / 16777216)]

def word16 (a b : UInt8) : UInt16 := UInt16.ofNat (a.toNat + 256 * b.toNat)

def word32 (a b c d : UInt8) : UInt32 :=
  UInt32.ofNat (a.toNat + 256 * b.toNat + 65536 * c.toNat + 16777216 * d.toNat)

theorem toNat_word16 (a b : UInt8) : (word16 a b).toNat = a.toNat + 256 * b.toNat := by
  have ha := a.toNat_lt
  have hb := b.toNat_lt
  simp only [word16, UInt16.toNat_ofNat']
  omega

theorem toNat_word32 (a b c d : UInt8) :
    (word32 a b c d).toNat =
      a.toNat + 256 * b.toNat + 65536 * c.toNat + 16777216 * d.toNat := by
  have ha := a.toNat_lt
  have hb := b.toNat_lt
  have hc := c.toNat_lt
  have hd := d.toNat_lt
  simp only [word32, UInt32.toNat_ofNat']
  omega

/-- Reading the two bytes of a word gives the word. -/
theorem word16_ofWord16 (n : UInt16) :
    word16 (UInt8.ofNat (n.toNat % 256)) (UInt8.ofNat (n.toNat / 256)) = n := by
  apply UInt16.toNat_inj.1
  have h := n.toNat_lt
  simp only [toNat_word16, UInt8.toNat_ofNat']
  omega

/-- Reading the four bytes of a word gives the word. -/
theorem word32_ofWord32 (n : UInt32) :
    word32 (UInt8.ofNat (n.toNat % 256)) (UInt8.ofNat (n.toNat / 256 % 256))
      (UInt8.ofNat (n.toNat / 65536 % 256)) (UInt8.ofNat (n.toNat / 16777216)) = n := by
  apply UInt32.toNat_inj.1
  have h := n.toNat_lt
  simp only [toNat_word32, UInt8.toNat_ofNat']
  omega

@[simp] theorem length_ofWord16 (n : UInt16) : (ofWord16 n).length = 2 := rfl

@[simp] theorem length_ofWord32 (n : UInt32) : (ofWord32 n).length = 4 := rfl

end DeviceSleep.Bytes

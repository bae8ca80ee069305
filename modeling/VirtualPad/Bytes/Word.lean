/-!
# Little-endian words

A word travels as its bytes, the least significant first. Reading the written bytes gives the
word back, and every pair and every quadruple of bytes is the written form of one word.
-/
namespace VirtualPad.Word

def bytes16 (w : UInt16) : List UInt8 :=
  [.ofNat w.toNat, .ofNat (w.toNat / 256)]

def bytes32 (w : UInt32) : List UInt8 :=
  [.ofNat w.toNat, .ofNat (w.toNat / 256), .ofNat (w.toNat / 65536), .ofNat (w.toNat / 16777216)]

def ofBytes16 (b0 b1 : UInt8) : UInt16 :=
  .ofNat (b0.toNat + 256 * b1.toNat)

def ofBytes32 (b0 b1 b2 b3 : UInt8) : UInt32 :=
  .ofNat (b0.toNat + 256 * (b1.toNat + 256 * (b2.toNat + 256 * b3.toNat)))

theorem ofBytes16_bytes16 (w : UInt16) :
    ofBytes16 (.ofNat w.toNat) (.ofNat (w.toNat / 256)) = w := by
  have hw := w.toNat_lt
  apply UInt16.toNat_inj.mp
  simp only [ofBytes16, UInt16.toNat_ofNat', UInt8.toNat_ofNat']
  omega

theorem ofBytes32_bytes32 (w : UInt32) :
    ofBytes32 (.ofNat w.toNat) (.ofNat (w.toNat / 256)) (.ofNat (w.toNat / 65536))
      (.ofNat (w.toNat / 16777216)) = w := by
  have hw := w.toNat_lt
  apply UInt32.toNat_inj.mp
  simp only [ofBytes32, UInt32.toNat_ofNat', UInt8.toNat_ofNat']
  omega

theorem bytes16_ofBytes16 (b0 b1 : UInt8) : bytes16 (ofBytes16 b0 b1) = [b0, b1] := by
  have h0 := b0.toNat_lt
  have h1 := b1.toNat_lt
  simp only [bytes16, ofBytes16, UInt16.toNat_ofNat', List.cons.injEq, and_true]
  refine ⟨?_, ?_⟩ <;> apply UInt8.toNat_inj.mp <;> simp only [UInt8.toNat_ofNat'] <;> omega

theorem bytes32_ofBytes32 (b0 b1 b2 b3 : UInt8) :
    bytes32 (ofBytes32 b0 b1 b2 b3) = [b0, b1, b2, b3] := by
  have h0 := b0.toNat_lt
  have h1 := b1.toNat_lt
  have h2 := b2.toNat_lt
  have h3 := b3.toNat_lt
  simp only [bytes32, ofBytes32, UInt32.toNat_ofNat', List.cons.injEq, and_true]
  refine ⟨?_, ?_, ?_, ?_⟩ <;> apply UInt8.toNat_inj.mp <;> simp only [UInt8.toNat_ofNat'] <;>
    omega

end VirtualPad.Word

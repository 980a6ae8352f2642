/-
Digests of texts. Length and digest together stand for a text: they tell whether a file already
holds what is to be written to it. The digest itself is any function of texts.
-/
namespace Stencil.Digest

/-- A digest in sixteen hexadecimal digits. -/
def hexDigits (h : UInt64) : String :=
  let digits := Nat.toDigits 16 h.toNat
  String.ofList (List.replicate (16 - digits.length) '0' ++ digits)

/-- The text that a file holds, if any, is taken to be `generated` when length and digest agree. -/
def isUnchanged (digest : String → UInt64) (existing : Option String) (generated : String) :
    Bool :=
  existing.any fun old =>
    old.utf8ByteSize == generated.utf8ByteSize && digest old == digest generated

end Stencil.Digest

/-!
# UTF-8 text

`encode` writes text as bytes. A byte string is read as `pieces`: each piece is a character or a
maximal ill-formed part, that is the longest start of some written character, or one byte that no
written character starts with. `decode?` accepts text without ill-formed parts and `decodeLossy`
puts one replacement character in the place of each.
-/
namespace VirtualPad.Utf8

def encode (text : String) : List UInt8 :=
  text.toList.flatMap String.utf8EncodeChar

def replacement : Char := '\uFFFD'

def isContinuation (b : UInt8) : Bool :=
  0x80 ≤ b && b < 0xC0

/-- The bytes that may follow a lead byte of three or four: they leave out overlong forms,
surrogates and values past the last code point. -/
def mayFollow (lead second : UInt8) : Bool :=
  if lead = 0xE0 then 0xA0 ≤ second && second < 0xC0
  else if lead = 0xED then 0x80 ≤ second && second < 0xA0
  else if lead = 0xF0 then 0x90 ≤ second && second < 0xC0
  else if lead = 0xF4 then 0x80 ≤ second && second < 0x90
  else isContinuation second

def payload (b : UInt8) : Nat :=
  b.toNat % 64

structure Piece where
  char? : Option Char
  more : Nat
  deriving DecidableEq

def two (b : UInt8) : List UInt8 → Piece
  | c :: _ =>
    if isContinuation c then ⟨some (Char.ofNat (b.toNat % 32 * 64 + payload c)), 1⟩ else ⟨none, 0⟩
  | [] => ⟨none, 0⟩

def three (b : UInt8) : List UInt8 → Piece
  | [] => ⟨none, 0⟩
  | c :: rest =>
    if mayFollow b c then
      match rest with
      | d :: _ =>
        if isContinuation d then
          ⟨some (Char.ofNat (b.toNat % 16 * 4096 + payload c * 64 + payload d)), 2⟩
        else ⟨none, 1⟩
      | [] => ⟨none, 1⟩
    else ⟨none, 0⟩

def four (b : UInt8) : List UInt8 → Piece
  | [] => ⟨none, 0⟩
  | c :: rest =>
    if mayFollow b c then
      match rest with
      | [] => ⟨none, 1⟩
      | d :: rest =>
        if isContinuation d then
          match rest with
          | e :: _ =>
            if isContinuation e then
              ⟨some (Char.ofNat
                (b.toNat % 8 * 262144 + payload c * 4096 + payload d * 64 + payload e)), 3⟩
            else ⟨none, 2⟩
          | [] => ⟨none, 2⟩
        else ⟨none, 1⟩
    else ⟨none, 0⟩

def piece (b : UInt8) (rest : List UInt8) : Piece :=
  if b < 0x80 then ⟨some (Char.ofNat b.toNat), 0⟩
  else if b < 0xC2 then ⟨none, 0⟩
  else if b < 0xE0 then two b rest
  else if b < 0xF0 then three b rest
  else if b < 0xF5 then four b rest
  else ⟨none, 0⟩

def piecesFrom : Nat → List UInt8 → List (Option Char)
  | _, [] => []
  | skip + 1, _ :: rest => piecesFrom skip rest
  | 0, b :: rest => (piece b rest).char? :: piecesFrom (piece b rest).more rest

def pieces (bytes : List UInt8) : List (Option Char) :=
  piecesFrom 0 bytes

def decodeLossy (bytes : List UInt8) : String :=
  .ofList ((pieces bytes).map (·.getD replacement))

def decode? (bytes : List UInt8) : Option String :=
  ((pieces bytes).mapM id).map .ofList

end VirtualPad.Utf8

namespace AnalyzerConfig

/-- A string of bytes: UTF-8 text where the bytes are such text, the bare bytes where they are
not. -/
inductive Octets where
  | text (s : String)
  | raw (bytes : List UInt8) (invalid : String.fromUTF8? ⟨bytes.toArray⟩ = none)
deriving DecidableEq

namespace Octets

def ofBytes (bs : List UInt8) : Octets :=
  match h : String.fromUTF8? ⟨bs.toArray⟩ with
  | some s => .text s
  | none => .raw bs h

def bytes : Octets → List UInt8
  | .text s => s.toList.flatMap String.utf8EncodeChar
  | .raw bs _ => bs

def text? : Octets → Option String
  | .text s => some s
  | .raw _ _ => none

def segments : Octets → List Octets
  | .text s => (s.toList.splitOn '/').map fun cs => .text (String.ofList cs)
  | .raw bs _ => (bs.splitOn 0x2F).map ofBytes

/-- Whether the first byte is a dot, which hides a file from a scan. -/
def startsWithDot : Octets → Bool
  | .text s => s.toList.head? == some '.'
  | .raw bs _ => bs.head? == some 0x2E

/-- A character, or a longest run of bytes that begins a character and does not finish it. -/
inductive Piece where
  | char (c : Char)
  | broken (bytes : List UInt8)

/-- The ranges in which the bytes after a leading byte must lie; none for a byte that leads
nothing. -/
def continuation (b : UInt8) : Option (List (UInt8 × UInt8)) :=
  let any : UInt8 × UInt8 := (0x80, 0xBF)
  if b < 0x80 then some []
  else if b < 0xC2 then none
  else if b < 0xE0 then some [any]
  else if b = 0xE0 then some [(0xA0, 0xBF), any]
  else if b = 0xED then some [(0x80, 0x9F), any]
  else if b < 0xF0 then some [any, any]
  else if b = 0xF0 then some [(0x90, 0xBF), any, any]
  else if b < 0xF4 then some [any, any, any]
  else if b = 0xF4 then some [(0x80, 0x8F), any, any]
  else none

def fitting : List (UInt8 × UInt8) → List UInt8 → Nat
  | (lo, hi) :: ranges, b :: bs => if lo ≤ b ∧ b ≤ hi then fitting ranges bs + 1 else 0
  | _, _ => 0

def spelled (lead : UInt8) (tail : List UInt8) : Char :=
  let payload := match tail.length with
    | 0 => lead.toNat
    | 1 => lead.toNat % 0x20
    | 2 => lead.toNat % 0x10
    | _ => lead.toNat % 0x08
  Char.ofNat (tail.foldl (fun n b => n * 0x40 + b.toNat % 0x40) payload)

def piecesOfBytes : List UInt8 → List Piece
  | [] => []
  | b :: rest =>
    match continuation b with
    | none => .broken [b] :: piecesOfBytes rest
    | some ranges =>
      let n := fitting ranges rest
      (if n = ranges.length then .char (spelled b (rest.take n)) else .broken (b :: rest.take n))
        :: piecesOfBytes (rest.drop n)
termination_by bs => bs.length
decreasing_by all_goals simp only [List.length_cons, List.length_drop]; omega

def pieces : Octets → List Piece
  | .text s => s.toList.map .char
  | .raw bs _ => piecesOfBytes bs

/-- The text of some pieces, with one replacement character for each broken run. -/
def lossy (ps : List Piece) : String :=
  String.ofList <| ps.map fun
    | .char c => c
    | .broken _ => '\uFFFD'

end Octets

end AnalyzerConfig

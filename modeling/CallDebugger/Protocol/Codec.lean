import CallDebugger.KeySet
import CallDebugger.Text.Utf8

/-!
# Binary formats

A `Codec` is a binary format: how a value is written, how many bytes that takes, and how a value is
read from the front of a byte string. Formats are built from a few primitives (fixed-width words,
truth values, counted texts and lists) by pairing, by tagging and by renaming values, so writer and
reader never drift apart. Whatever follows a value is left to the reader's caller.
-/

namespace CallDebugger

/-- Why no value can be read. -/
inductive Fault where
  /-- The bytes end inside a word or a truth value. -/
  | endOfInput
  /-- The bytes end inside a text. -/
  | textCutOff
  | notUtf8 (fault : Utf8.Fault)
  | badBool (byte : UInt8)
  | badOption (byte : UInt8)
  /-- An alternative is given by an index that is not below `count`. -/
  | badVariant (index count : Nat)
  | badResult (index : Nat)
  | unknownTag (tag : String) (known : List String)
deriving Repr, DecidableEq, Inhabited

/-- The wording of a fault. -/
def Fault.message : Fault → String
  | endOfInput => "io error: unexpected end of file"
  | textCutOff => "io error: "
  | notUtf8 fault => "string is not valid utf8: " ++ fault.message
  | badBool byte =>
    "invalid u8 while decoding bool, expected 0 or 1, found " ++ toString byte.toNat
  | badOption byte => "tag for enum is not valid, found " ++ toString byte.toNat
  | badVariant index count =>
    "invalid value: integer \x60" ++ toString index ++ "\x60, expected variant index 0 <= i < " ++
      toString count
  | badResult index =>
    "invalid value: integer \x60" ++ toString index ++ "\x60, expected \x60Ok\x60 or \x60Err\x60"
  | unknownTag tag known =>
    "unknown variant \x60" ++ tag ++ "\x60, expected one of " ++
      ", ".intercalate (known.map fun word => "\x60" ++ word ++ "\x60")

/-- A binary format of the values of `α`. -/
structure Codec (α : Type) where
  encode : α → Bytes
  /-- How many bytes `encode` writes. -/
  size : α → Nat
  /-- Reads a value from the front, and gives back what follows it. -/
  decode : Bytes → Except Fault (α × Bytes)

/-- A record as the tuple of its fields, or a value of a union as its alternative and what it
carries. -/
structure Fields (α β : Type) where
  build : α → β
  parts : β → α

/-- `width` bytes of `n`, the lowest first. -/
def littleEndian : Nat → Nat → Bytes
  | 0, _ => []
  | width + 1, n => UInt8.ofNat n :: littleEndian width (n / 256)

/-- The number that the bytes spell, the lowest first. -/
def ofLittleEndian : Bytes → Nat
  | [] => 0
  | b :: bs => b.toNat + 256 * ofLittleEndian bs

/-- The first `n` bytes and the rest; `none` if there are fewer. -/
def splitBytes? (n : Nat) (bytes : Bytes) : Option (Bytes × Bytes) :=
  let front := bytes.take n
  if front.length = n then some (front, bytes.drop n) else none

namespace Codec

variable {α β κ : Type}

/-- The format of `α`, whose values stand for those of `β`. -/
def imap (c : Codec α) (f : α → β) (g : β → α) : Codec β where
  encode b := c.encode (g b)
  size b := c.size (g b)
  decode bytes :=
    match c.decode bytes with
    | .ok (a, rest) => .ok (f a, rest)
    | .error fault => .error fault

/-- The format of a record whose fields have the format `c`. -/
def record (c : Codec α) (f : Fields α β) : Codec β := c.imap f.build f.parts

/-- A value that takes no bytes. -/
def unit : Codec Unit where
  encode _ := []
  size _ := 0
  decode bytes := .ok ((), bytes)

/-- Two values, one after the other. -/
def pair (c : Codec α) (d : Codec β) : Codec (α × β) where
  encode p := c.encode p.1 ++ d.encode p.2
  size p := c.size p.1 + d.size p.2
  decode bytes :=
    match c.decode bytes with
    | .error fault => .error fault
    | .ok (a, rest) =>
      match d.decode rest with
      | .error fault => .error fault
      | .ok (b, rest) => .ok ((a, b), rest)

/-- A tag, and after it a value in the format that the tag chooses. -/
def tagged {body : κ → Type} (tag : Codec κ) (format : (k : κ) → Codec (body k)) :
    Codec ((k : κ) × body k) where
  encode p := tag.encode p.1 ++ (format p.1).encode p.2
  size p := tag.size p.1 + (format p.1).size p.2
  decode bytes :=
    match tag.decode bytes with
    | .error fault => .error fault
    | .ok (k, rest) =>
      match (format k).decode rest with
      | .error fault => .error fault
      | .ok (b, rest) => .ok (⟨k, b⟩, rest)

/-- A word of `width` bytes, the lowest first. -/
def word (width : Nat) : Codec (BitVec (8 * width)) where
  encode n := littleEndian width n.toNat
  size _ := width
  decode bytes :=
    match splitBytes? width bytes with
    | some (front, rest) => .ok (BitVec.ofNat _ (ofLittleEndian front), rest)
    | none => .error .endOfInput

def uint8 : Codec UInt8 := (word 1).imap UInt8.ofBitVec UInt8.toBitVec
def uint16 : Codec UInt16 := (word 2).imap UInt16.ofBitVec UInt16.toBitVec
def uint32 : Codec UInt32 := (word 4).imap UInt32.ofBitVec UInt32.toBitVec
def uint64 : Codec UInt64 := (word 8).imap UInt64.ofBitVec UInt64.toBitVec
def int8 : Codec Int8 := (word 1).imap Int8.ofBitVec Int8.toBitVec
def int16 : Codec Int16 := (word 2).imap Int16.ofBitVec Int16.toBitVec
def int32 : Codec Int32 := (word 4).imap Int32.ofBitVec Int32.toBitVec
def int64 : Codec Int64 := (word 8).imap Int64.ofBitVec Int64.toBitVec

/-- A truth value: one byte, zero or one. -/
def bool : Codec Bool where
  encode b := [if b then 1 else 0]
  size _ := 1
  decode
    | [] => .error .endOfInput
    | b :: rest =>
      if b = 0 then .ok (false, rest)
      else if b = 1 then .ok (true, rest)
      else .error (.badBool b)

/-- A value that may be missing: a byte, zero or one, and after a one the value. -/
def option (c : Codec α) : Codec (Option α) where
  encode
    | none => [0]
    | some a => 1 :: c.encode a
  size
    | none => 1
    | some a => 1 + c.size a
  decode
    | [] => .error .endOfInput
    | b :: rest =>
      if b = 0 then .ok (none, rest)
      else if b = 1 then
        match c.decode rest with
        | .ok (a, rest) => .ok (some a, rest)
        | .error fault => .error fault
      else .error (.badOption b)

/-- One of the listed alternatives, by its place in the list as a 32-bit word. -/
def ordinal [BEq κ] (all : List κ) (refuse : Nat → Fault) : Codec κ where
  encode k := uint32.encode (UInt32.ofNat (all.idxOf k))
  size _ := 4
  decode bytes :=
    match uint32.decode bytes with
    | .error fault => .error fault
    | .ok (index, rest) =>
      match all[index.toNat]? with
      | some k => .ok (k, rest)
      | none => .error (refuse index.toNat)

/-- One of the listed alternatives, refusing other places as out of range. -/
def variant [BEq κ] (all : List κ) : Codec κ :=
  ordinal all fun index => .badVariant index all.length

/-- Bytes after their count as a 64-bit word. `refuse` tells what it means that there are fewer. -/
def counted (refuse : Fault) : Codec Bytes where
  encode bytes := uint64.encode (UInt64.ofNat bytes.length) ++ bytes
  size bytes := 8 + bytes.length
  decode bytes :=
    match uint64.decode bytes with
    | .error fault => .error fault
    | .ok (count, rest) =>
      match splitBytes? count.toNat rest with
      | some p => .ok p
      | none => .error refuse

/-- Raw bytes after their count. -/
def bytes : Codec Bytes := counted .endOfInput

/-- The UTF-8 bytes of a text after their count. -/
def text : Codec String where
  encode t := uint64.encode (UInt64.ofNat t.utf8ByteSize) ++ Utf8.encode t
  size t := 8 + t.utf8ByteSize
  decode bytes :=
    match (counted .textCutOff).decode bytes with
    | .error fault => .error fault
    | .ok (front, rest) =>
      match Utf8.decode front with
      | .ok t => .ok (t, rest)
      | .error fault => .error (.notUtf8 fault)

/-- Reads `n` values after those in `acc`, which holds the newest first. -/
def decodeItems (c : Codec α) : Nat → List α → Bytes → Except Fault (List α × Bytes)
  | 0, acc, bytes => .ok (acc.reverse, bytes)
  | n + 1, acc, bytes =>
    match c.decode bytes with
    | .error fault => .error fault
    | .ok (a, rest) => c.decodeItems n (a :: acc) rest

/-- Values after their count as a 64-bit word. -/
def list (c : Codec α) : Codec (List α) where
  encode as := uint64.encode (UInt64.ofNat as.length) ++ as.flatMap c.encode
  size as := as.foldl (fun n a => n + c.size a) 8
  decode bytes :=
    match uint64.decode bytes with
    | .error fault => .error fault
    | .ok (count, rest) => c.decodeItems count.toNat [] rest

/-- The members of a set as a list. They may come in any order and more than once. -/
def keySet [Keyed α] (c : Codec α) : Codec (KeySet α) := c.list.imap KeySet.ofList KeySet.items

/-- One of the listed alternatives, by its tag. -/
def keyword (all : List κ) (tag : κ → String) : Codec κ where
  encode k := text.encode (tag k)
  size k := text.size (tag k)
  decode bytes :=
    match text.decode bytes with
    | .error fault => .error fault
    | .ok (t, rest) =>
      match all.find? fun k => tag k == t with
      | some k => .ok (k, rest)
      | none => .error (.unknownTag t (all.map tag))

end Codec

end CallDebugger

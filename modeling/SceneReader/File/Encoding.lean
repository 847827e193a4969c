/-!
# Encodings of text files

Bytes are text in one of a few encodings.  What is no text is refused at the first
offending byte, with a reason that depends on that byte and those after it.
-/

namespace SceneReader

/-- The encodings that files may be in. -/
inductive Encoding where
  | utf8
  /-- UTF-8 in which a byte order mark at the start is left out. -/
  | utf8Signed
  | latin1
  | ascii
deriving DecidableEq

/-- Why bytes are no text. -/
inductive DecodeFault where
  | startByte
  | continuationByte
  | endOfData
  | notAscii
deriving DecidableEq

/-- The words for a fault. -/
def DecodeFault.text : DecodeFault → String
  | startByte => "invalid start byte"
  | continuationByte => "invalid continuation byte"
  | endOfData => "unexpected end of data"
  | notAscii => "ordinal not in range(128)"

namespace Encoding

/-- A name of an encoding with everything but letters, digits and points as single
underscores between them; `due` says that one comes next. -/
def plainName (due : Bool) : List Char → List Char
  | [] => []
  | c :: cs =>
      if c.isAlphanum || c == '.' then
        if due then '_' :: c.toLower :: plainName false cs else c.toLower :: plainName false cs
      else plainName true cs

/-- The names of each encoding. -/
def names : List (Encoding × List String) :=
  [(.utf8, ["utf_8", "utf8", "u8", "utf", "utf8_ucs2", "utf8_ucs4", "cp65001"]),
   (.utf8Signed, ["utf_8_sig"]),
   (.latin1, ["latin_1", "latin1", "latin", "l1", "iso8859_1", "iso_8859_1", "iso8859", "8859",
     "cp819", "iso_ir_100", "ibm819", "csisolatin1", "iso_8859_1_1987"]),
   (.ascii, ["ascii", "646", "us_ascii", "us", "ansi_x3.4_1968", "ansi_x3_4_1968",
     "ansi_x3.4_1986", "iso646_us", "iso_646.irv_1991", "iso_ir_6", "cp367", "csascii",
     "ibm367"])]

/-- The encoding of a name. -/
def ofName? (name : String) : Option Encoding :=
  let plain := plainName false (name.toList.dropWhile (fun c => !(c.isAlphanum || c == '.')))
  (names.find? (fun e => e.2.contains (String.ofList plain))).map (·.1)

/-- A byte that goes on with a character. -/
def continues (b : UInt8) : Bool := 0x80 ≤ b && b < 0xC0

/-- The low six bits of a continuation byte. -/
def low (b : UInt8) : Nat := b.toNat % 64

/-- The second byte may follow the first one of three. -/
def secondOfThree (a b : UInt8) : Bool :=
  continues b && (if a == 0xE0 then 0xA0 ≤ b else if a == 0xED then b < 0xA0 else true)

/-- The second byte may follow the first one of four. -/
def secondOfFour (a b : UInt8) : Bool :=
  continues b && (if a == 0xF0 then 0x90 ≤ b else if a == 0xF4 then b < 0x90 else true)

/-- Reads UTF-8. -/
def decodeUtf8 : List UInt8 → Except DecodeFault (List Char)
  | [] => .ok []
  | a :: r =>
      if a < 0x80 then (decodeUtf8 r).map (Char.ofNat a.toNat :: ·)
      else if a < 0xC2 then .error .startByte
      else if a < 0xE0 then
        match r with
        | [] => .error .endOfData
        | b :: r =>
            if continues b then
              (decodeUtf8 r).map (Char.ofNat ((a.toNat - 0xC0) * 64 + low b) :: ·)
            else .error .continuationByte
      else if a < 0xF0 then
        match r with
        | [] => .error .endOfData
        | [b] => .error (if secondOfThree a b then .endOfData else .continuationByte)
        | b :: c :: r =>
            if secondOfThree a b && continues c then
              (decodeUtf8 r).map
                (Char.ofNat ((a.toNat - 0xE0) * 4096 + low b * 64 + low c) :: ·)
            else .error .continuationByte
      else if a < 0xF5 then
        match r with
        | [] => .error .endOfData
        | [b] => .error (if secondOfFour a b then .endOfData else .continuationByte)
        | [b, c] =>
            .error (if secondOfFour a b && continues c then .endOfData else .continuationByte)
        | b :: c :: d :: r =>
            if secondOfFour a b && continues c && continues d then
              (decodeUtf8 r).map
                (Char.ofNat ((a.toNat - 0xF0) * 262144 + low b * 4096 + low c * 64 + low d) :: ·)
            else .error .continuationByte
      else .error .startByte

/-- Reads ASCII. -/
def decodeAscii (bytes : List UInt8) : Except DecodeFault (List Char) :=
  if bytes.all (· < 0x80) then .ok (bytes.map (fun b => Char.ofNat b.toNat))
  else .error .notAscii

/-- A text without a byte order mark at its start. -/
def dropMark : List Char → List Char
  | c :: cs => if c.toNat = 0xFEFF then cs else c :: cs
  | [] => []

/-- Reads bytes in an encoding. -/
def decode (e : Encoding) (bytes : List UInt8) : Except DecodeFault (List Char) :=
  match e with
  | .utf8 => decodeUtf8 bytes
  | .utf8Signed => (decodeUtf8 bytes).map dropMark
  | .latin1 => .ok (bytes.map (fun b => Char.ofNat b.toNat))
  | .ascii => decodeAscii bytes

end Encoding
end SceneReader

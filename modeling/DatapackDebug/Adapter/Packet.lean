import DatapackDebug.Text.Basic

namespace DatapackDebug

/-!
# Packets

Messages are sent in packets: a header with the length of the content, an empty line, and the
content.

* `Packet.wrap` — the packet of a content;
* `Packet.read` — the content of the first packet, and what follows it.
-/

namespace Packet

/-- What a header starts with. -/
def headerStart : Text := "Content-Length: "

/-- The longest content that is read: 4 MiB. -/
def maxLength : Nat := 4 * 1024 * 1024

/-- What ends a header. -/
def headerEnd : Text := [0x0d, 0x0a, 0x0d, 0x0a]

/-- The packet of a content. -/
def wrap (content : Text) : Text :=
  headerStart ++ Text.ofNat content.length ++ headerEnd ++ content

/-- The length that a header gives, if it is one that is read. -/
def length? (header : Text) : Option Nat := do
  let digits ← Text.dropStart? headerStart header
  if digits.isEmpty || !digits.all Text.isDigit then none
  else
    let length := Text.digitsValue digits
    if length ≤ maxLength then some length else none

/-- What the start of an input is. -/
inductive Reading where
  | packet (content rest : Text)
  /-- a packet may still come of it -/
  | incomplete
  | malformed
deriving DecidableEq, Repr

/-- Read a packet from the start of an input. -/
def read (input : Text) : Reading :=
  let rest := input.dropWhile (· != 0x0d)
  if rest.length < headerEnd.length then .incomplete
  else match Text.dropStart? headerEnd rest, length? (input.takeWhile (· != 0x0d)) with
    | some rest, some length =>
      if rest.length < length then .incomplete else .packet (rest.take length) (rest.drop length)
    | _, _ => .malformed

end Packet

end DatapackDebug

import Sidescroller.Document.Record
import Sidescroller.Story.Script
import Sidescroller.Story.Session
import Sidescroller.Text
import Sidescroller.Toml.Reading

/-!
# Stories in documents

Nodes, scripts, reasons and conversation ids as data. `Script.load?` reads a script from a TOML
document.
-/

namespace Sidescroller.Story

def Choice.ofDatum? (surplus : Surplus) (datum : Datum) : Option Choice := do
  let r ← Record.ofDatum? surplus ["text", "next", "consequence"] datum
  return ⟨← r.need? "text" Datum.text?, ← r.textOrNone? "next", ← r.textOrNone? "consequence"⟩

def Choice.toDatum (choice : Choice) : Datum :=
  .table [("text", .text choice.text), ("next", .ofOption choice.next),
    ("consequence", .ofOption choice.consequence)]

def Node.ofDatum? (surplus : Surplus) (datum : Datum) : Option Node := do
  let r ← Record.ofDatum? surplus ["id", "speaker", "text", "choices", "grants_item", "emotion"]
    datum
  return ⟨← r.need? "id" Datum.text?, ← r.need? "speaker" Datum.text?,
    ← r.need? "text" Datum.text?, ← r.orElse? "choices" (Datum.list? (Choice.ofDatum? surplus)) [],
    ← r.textOrNone? "grants_item", ← r.textOrNone? "emotion"⟩

def Node.toDatum (node : Node) : Datum :=
  .table [("id", .text node.id), ("speaker", .text node.speaker), ("text", .text node.text),
    ("choices", .list (node.choices.map Choice.toDatum)),
    ("grants_item", .ofOption node.grantsItem), ("emotion", .ofOption node.emotion)]

def Outline.ofDatum? (surplus : Surplus) (datum : Datum) : Option Outline := do
  let r ← Record.ofDatum? surplus
    ["initial", "milestones", "labels", "objectives", "fallback_objective"] datum
  return ⟨← r.need? "initial" Datum.text?, ← r.need? "milestones" (Datum.list? Datum.text?),
    ← r.need? "labels" (Datum.list? Datum.text?), ← r.orElse? "objectives" Datum.textTable? [],
    ← r.orElse? "fallback_objective" Datum.text? ""⟩

def Script.ofDatum? (surplus : Surplus) (datum : Datum) : Option Script := do
  let r ← Record.ofDatum? surplus ["chapters", "nodes"] datum
  return ⟨← r.need? "chapters" (Outline.ofDatum? surplus),
    ← r.orElse? "nodes" (Datum.list? (Node.ofDatum? surplus)) []⟩

/-- The script that a TOML document describes. -/
def Script.load? (text : String) : Option Script := (Toml.read? text).bind (ofDatum? .skipped)

/-- Reads a reason for the end of a conversation. -/
def EndReason.ofDatum? (surplus : Surplus) : Datum → Option EndReason :=
  Datum.alternative? fun name payload =>
    match name, payload with
    | "Terminal", none | "Terminal", some .null => some .terminal
    | "Cancelled", none | "Cancelled", some .null => some .cancelled
    | "BrokenReference", some datum => do
      let r ← Record.ofDatum? surplus ["missing_node_id"] datum
      return .brokenReference (← r.need? "missing_node_id" Datum.text?)
    | _, _ => none

/-- A reason for the end of a conversation, as a datum. -/
def EndReason.toDatum : EndReason → Datum
  | terminal => .text "Terminal"
  | brokenReference missing =>
    .table [("BrokenReference", .table [("missing_node_id", .text missing)])]
  | cancelled => .text "Cancelled"

/-! ### Conversation ids

A conversation id is written as 32 hexadecimal digits in groups of 8, 4, 4, 4 and 12. -/

namespace ConversationId

/-- The digits of an id with hyphens between the groups. -/
def hyphenated? (cs : List Char) : Option (List Char) :=
  if cs.length = 36 ∧ cs[8]? = some '-' ∧ cs[13]? = some '-' ∧ cs[18]? = some '-'
      ∧ cs[23]? = some '-' then
    some (cs.take 8 ++ (cs.drop 9).take 4 ++ (cs.drop 14).take 4 ++ (cs.drop 19).take 4
      ++ cs.drop 24)
  else none

/-- What may stand in front of the digits of an id, in letters of either case. -/
def uriScheme : List Char := "urn:uuid:".toList

/-- The digits of an id: in one piece, or in groups, and in the latter case perhaps within braces or
after the name of their scheme. -/
def digits? (cs : List Char) : Option (List Char) :=
  if cs.length = 32 then some cs
  else if cs.length = 38 ∧ cs.head? = some '\x7b' ∧ cs.getLast? = some '\x7d' then
    hyphenated? (cs.drop 1).dropLast
  else if (cs.take uriScheme.length).map Char.toLower = uriScheme then
    hyphenated? (cs.drop uriScheme.length)
  else hyphenated? cs

def ofText? (text : String) : Option ConversationId :=
  ((digits? text.toList).bind (Text.number? 16)).map ConversationId.mk

/-- The written form of an id. -/
def text (id : ConversationId) : String :=
  let digits := Nat.toDigits 16 id.number
  let cs := List.replicate (32 - digits.length) '0' ++ digits
  let group (start size : Nat) := String.ofList ((cs.drop start).take size)
  String.intercalate "-" [group 0 8, group 8 4, group 12 4, group 16 4, String.ofList (cs.drop 20)]

def ofDatum? (datum : Datum) : Option ConversationId := datum.text?.bind ofText?

def toDatum (id : ConversationId) : Datum := .text id.text

end ConversationId

end Sidescroller.Story

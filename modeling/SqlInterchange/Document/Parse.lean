import SqlInterchange.Document.Shape
import SqlInterchange.Json.Reader
import SqlInterchange.Json.Writer
import SqlInterchange.Text.Utf8

/-! # Documents from text

A document is taken from JSON text, from the bytes of such text, from a value, or from a document,
which is taken as it is. Whatever keeps a source from being a document has one cause: the bytes
are no UTF-8, the text is no JSON, the value is no object, or the object has not the shape of a
document. Only an integer of too many digits is no such cause. -/
namespace SqlInterchange

/-- What a document is taken from. -/
inductive Source where
  /-- A document. -/
  | document (d : Document)
  /-- A value; if it is a text, the JSON text. -/
  | value (v : Value)
  /-- The bytes of JSON text. -/
  | bytes (bs : List UInt8)

/-- What keeps a source from being a document. -/
inductive ParseError where
  /-- The bytes are no UTF-8. -/
  | undecodable (fault : Utf8.Fault)
  /-- The text is no JSON: the complaint and how many characters are left at its place. -/
  | malformed (text : Text) (complaint : Json.Complaint) (left : Nat)
  /-- The value is no object; the text is there if the value came from one. -/
  | notAnObject (typeName : Text) (text? : Option Text)
  /-- The object has not the shape of a document. -/
  | misshapen (problems : List Shape.Problem) (text? : Option Text)

namespace ParseError

/-- The text that should have been a document, if there was one. -/
def raw? : ParseError → Option Text
  | undecodable _ => none
  | malformed text _ _ => some text
  | notAnObject _ text? | misshapen _ text? => text?

/-- What is wrong with a malformed stretch of bytes. -/
def reasonText : Utf8.Reason → Text
  | .invalidStart => "invalid start byte".toList
  | .invalidContinuation => "invalid continuation byte".toList
  | .truncated => "unexpected end of data".toList

/-- The place of a malformed stretch of bytes and what is wrong with it. -/
def faultText (f : Utf8.Fault) : Text :=
  "'utf-8' codec can't decode byte".toList ++
    (if f.length = 1 then
      " 0x".toList ++ Text.hex 2 f.first.toNat ++ " in position ".toList ++
        Decimal.digits f.position
    else
      "s in position ".toList ++ Decimal.digits f.position ++
        '-' :: Decimal.digits (f.position + f.length - 1)) ++
    ':' :: ' ' :: reasonText f.reason

/-- The message of an error. -/
def message : ParseError → Text
  | undecodable fault => "Invalid JSON: ".toList ++ faultText fault
  | malformed text complaint left =>
    "Invalid JSON: ".toList ++ Json.complaintText text complaint left
  | notAnObject typeName _ => "Document must be a JSON object, got ".toList ++ typeName ++ ['.']
  | misshapen problems _ =>
    "Document structure is invalid: ".toList ++ Decimal.digits problems.length ++
      " validation error".toList ++ (if problems.length = 1 then [] else ['s']) ++
      " for Document".toList

end ParseError

/-- Why no document is taken from a source. -/
inductive Refusal where
  /-- The source is no document. -/
  | invalid (error : ParseError)
  /-- The text has an integer of this many digits, more than are read. -/
  | integerTooLong (digits : Nat)

namespace Document

/-- The document that a value is; `text?` is the JSON text that the value came from, if any. -/
def ofValue (text? : Option Text) (v : Value) : Except Refusal Document :=
  match v with
  | .object _ => (Shape.document v).mapError fun problems => .invalid (.misshapen problems text?)
  | _ => .error (.invalid (.notAnObject v.typeName text?))

/-- The document that a JSON text holds. -/
def ofText (t : Text) : Except Refusal Document :=
  match Json.read t with
  | .ok v => ofValue (some t) v
  | .error (.complaint kind left) => .error (.invalid (.malformed t kind left))
  | .error (.integerTooLong digits) => .error (.integerTooLong digits)

/-- The document that bytes of JSON text hold. -/
def ofBytes (bs : List UInt8) : Except Refusal Document :=
  match Utf8.decode bs with
  | .ok t => ofText t
  | .error fault => .error (.invalid (.undecodable fault))

/-- The document that a source holds. -/
def parse : Source → Except Refusal Document
  | .document d => .ok d
  | .value (.text t) => ofText t
  | .value (.bytes bs) | .bytes bs => ofBytes bs
  | .value v => ofValue none v

/-- A document as JSON text. -/
def toJson (indent : Json.Indent) (d : Document) : Text := Json.write indent d.toValue

end Document
end SqlInterchange

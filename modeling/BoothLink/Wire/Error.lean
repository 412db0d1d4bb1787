import BoothLink.Json.Basic
import BoothLink.Octets
import BoothLink.Text.Quoted
import BoothLink.Text.Utf8

/-!
# What can be wrong with a message

One cause for each way in which octets fail to be a message, or a message fails to be written.

* `TextFault`: why the octets of a text field are no text.
* `WireError`, `WireError.name`, `WireError.message`: the causes, their names and their wording.
-/

namespace BoothLink

/-- The most octets that a length-prefixed frame or text may have: ten mebioctets. -/
def frameLimit : Nat := 10 * 1024 * 1024

/-- The most octets that a length field of four octets can announce. -/
def lengthLimit : Nat := 0xFFFFFFFF

/-- Why the octets of a text field are no text. -/
inductive TextFault where
  /-- Units of two octets, but an odd number of octets. -/
  | oddLength (octets : Nat)
  /-- A surrogate without its partner. -/
  | loneSurrogate
  | malformedOctets (fault : Utf8.Fault)
  /-- A fault in words of its own. -/
  | described (text : String)
  deriving DecidableEq, Repr

def TextFault.message : TextFault → String
  | oddLength octets => "UTF-16 string has odd byte length " ++ toString octets
  | loneSurrogate => "invalid UTF-16: invalid utf-16: lone surrogate found"
  | malformedOctets fault => "invalid UTF-8: " ++ fault.message
  | described text => text

/-- Why octets are no message, or a message has no octets. -/
inductive WireError where
  /-- The octets end before the message does. -/
  | truncated
  | encoding (fault : TextFault)
  /-- No kind of the catalog begins with these octets. -/
  | unknownMessage (buffered : Octets)
  | invalidMagic (expected found : Octets)
  /-- A discovery announcement whose action is neither arrival nor departure. -/
  | invalidAction (text : String)
  | countMismatch (players timelines : Nat)
  | malformedBeat (records remaining : Nat)
  | tooLarge (size limit : Nat)
  | json (fault : Json.Fault)
  deriving DecidableEq, Repr

def Json.Fault.message : Json.Fault → String
  | malformed => "malformed value"
  | cutShort => "text ends inside a value"
  | unfit => "value of another shape"

/-- The name of an error, whatever it carries. -/
def WireError.name : WireError → String
  | truncated => "Truncated"
  | encoding _ => "Encoding"
  | unknownMessage _ => "UnknownMessage"
  | invalidMagic .. => "InvalidMagic"
  | invalidAction _ => "InvalidDiscovererAction"
  | countMismatch .. => "PlayerTimelineCountMismatch"
  | malformedBeat .. => "MalformedBeatEmit"
  | tooLarge .. => "MessageTooLarge"
  | json _ => "Json"

def WireError.message : WireError → String
  | truncated => "Truncated input"
  | encoding fault => "Encoding error: " ++ fault.message
  | unknownMessage buffered =>
    "Unknown message (" ++ toString buffered.length ++ " bytes buffered): " ++ buffered.preview
  | invalidMagic expected found =>
    "Invalid magic bytes: expected " ++ expected.preview ++ ", found " ++ found.preview
  | invalidAction text => "Invalid discoverer action: " ++ Text.quoted text
  | countMismatch players timelines =>
    "Player count " ++ toString players ++ " does not match timeline count " ++ toString timelines
  | malformedBeat records remaining =>
    "Malformed beat emit: " ++ toString records ++ " records declared, " ++ toString remaining ++
      " bytes remaining"
  | tooLarge size limit =>
    "Message too large: " ++ toString size ++ " bytes (max: " ++ toString limit ++ ")"
  | json fault => "JSON error: " ++ fault.message

end BoothLink

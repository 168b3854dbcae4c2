import BoxRegistry.Text.Colour
import BoxRegistry.Text.Lines

namespace BoxRegistry

inductive OutputStream where
  | stdout
  | stderr
deriving DecidableEq, Repr

inductive LogLevel where
  | trace
  | debug
  | warn
deriving DecidableEq, Repr

namespace LogLevel

def name : LogLevel → String
  | trace => "TRACE"
  | debug => "DEBUG"
  | warn => "WARN"

end LogLevel

structure LogEntry where
  level : LogLevel
  text : String
deriving DecidableEq, Repr

namespace OutputStream

def level : OutputStream → LogLevel
  | stdout => .debug
  | stderr => .warn

def target : OutputStream → String
  | stdout => "box:stdout"
  | stderr => "box:stderr"

structure Log where
  lines : List LogEntry
  events : List LogEntry
deriving DecidableEq, Repr

def log (stream : OutputStream) (bytes : List UInt8) : Log :=
  let reading := Text.Lines.read bytes
  let failure : List LogEntry :=
    if reading.broken then
      [⟨.warn, "Failed to read from box pipe: stream did not contain valid UTF-8"⟩]
    else
      []
  { lines := reading.lines.map fun line => ⟨stream.level, Text.Colour.strip line⟩,
    events := failure ++ [⟨.trace, "Pipe closed"⟩] }

end OutputStream

end BoxRegistry

import HomelabMcp.JsonValue

/-!
# Tool errors

What a client sees of an error: a code, a message, and whether the call may be retried.  A tool
error is a result of the protocol, not a protocol error.
-/

namespace Tools

open Json (Value)

/-- An error as a tool returns it. -/
structure ToolError where
  code : String
  message : String
  retryable : Bool
  deriving DecidableEq

/-- The tool result of an error. -/
def ToolError.intoMcpResult (e : ToolError) : Value := .object [
  ("content", .array [.object [("text", .string e.message), ("type", .string "text")]]),
  ("isError", .bool true),
  ("structuredContent", .object [("error", .object [
    ("code", .string e.code),
    ("message", .string e.message),
    ("retryable", .bool e.retryable)])])]

end Tools

import EspMiner.Library.JsonText
import EspMiner.Stratum.Sv1Protocol

/-!
# Writing Stratum V1 requests

`components/stratum/sv1_protocol.c`: the bounded JSON writer and the encoders of the
requests that carry texts.  A buffer is the list of its bytes, as long as its capacity;
NULL is a buffer of no bytes.
-/

namespace EspMiner

open Library

/-- A C string: the bytes before its terminator. -/
structure CString where
  bytes : List U8
  nulFree : 0#8 ∉ bytes

/-- A buffer after bytes have been written at a position. -/
def overwrite (buffer : List U8) (position : Nat) (bytes : List U8) : List U8 :=
  buffer.take position ++ bytes ++ buffer.drop (position + bytes.length)

/-- The digits that `%0*x` prints, of at least so many places. -/
def hexDigits : Nat → Nat → List U8
  | 0, _ => []
  | places + 1, n => hexDigits places (n / 16) ++ [hexTable (n % 16)]

/-- `%08x` -/
def hexWord (value : U32) : List U8 := hexDigits 8 value.toNat

/-- `json_writer_t` -/
structure JsonWriter where
  buffer : List U8
  length : Nat
  failed : Bool

namespace JsonWriter

/-- `json_writer_init` -/
def init (buffer : List U8) : Option JsonWriter :=
  if buffer = [] then none
  else some { buffer := overwrite buffer 0 [0#8], length := 0, failed := false }

/-- The bytes of the buffer that are not taken, with the one for the terminator. -/
def remaining (writer : JsonWriter) : Nat := writer.buffer.length - writer.length

def fail (writer : JsonWriter) : JsonWriter :=
  { writer with failed := true, buffer := overwrite writer.buffer 0 [0#8] }

/-- `json_writer_append_bytes` -/
def appendBytes (writer : JsonWriter) (value : List U8) : JsonWriter :=
  if writer.failed then writer
  else if writer.remaining ≤ value.length then writer.fail
  else
    { writer with
      buffer := overwrite (overwrite writer.buffer writer.length value)
        (writer.length + value.length) [0#8]
      length := writer.length + value.length }

/-- `json_writer_append_literal` -/
def appendLiteral (writer : JsonWriter) (value : String) : JsonWriter :=
  writer.appendBytes (cText value)

/-- `json_writer_append_format`, for the text that the format gives: `vsnprintf` writes
what it has room for and a terminator. -/
def appendFormat (writer : JsonWriter) (text : List U8) : JsonWriter :=
  if writer.failed then writer
  else
    let printed := { writer with
      buffer := overwrite writer.buffer writer.length
        (text.take (writer.remaining - 1) ++ [0#8]) }
    if writer.remaining ≤ text.length then printed.fail
    else { printed with length := writer.length + text.length }

/-- One turn of the loop in `json_writer_append_escaped`. -/
def appendCharacter (writer : JsonWriter) (character : U8) : JsonWriter :=
  if character = 34#8 then writer.appendLiteral "\\\""
  else if character = 92#8 then writer.appendLiteral "\\\\"
  else if character = 8#8 then writer.appendLiteral "\\b"
  else if character = 12#8 then writer.appendLiteral "\\f"
  else if character = 10#8 then writer.appendLiteral "\\n"
  else if character = 13#8 then writer.appendLiteral "\\r"
  else if character = 9#8 then writer.appendLiteral "\\t"
  else if character.toNat < 0x20 then
    writer.appendBytes (cText "\\u00" ++
      [hexTable (character.toNat / 16), hexTable (character.toNat % 16)])
  else writer.appendBytes [character]

/-- `json_writer_append_escaped` -/
def appendEscaped (writer : JsonWriter) (value : CString) : JsonWriter :=
  value.bytes.foldl appendCharacter writer

/-- `json_writer_append_string` -/
def appendString (writer : JsonWriter) (value : CString) : JsonWriter :=
  ((writer.appendLiteral "\"").appendEscaped value).appendLiteral "\""

/-- `json_writer_finish`: what the encoder returns, and the buffer. -/
def finish (writer : JsonWriter) : Int × List U8 :=
  if writer.failed ∨ INT_MAX < writer.length then (-1, overwrite writer.buffer 0 [0#8])
  else (writer.length, writer.buffer)

end JsonWriter

open JsonWriter

/-- `STRATUM_V1_encode_subscribe` -/
def stratumV1EncodeSubscribe (buffer : List U8) (messageId : Int)
    (model version : Option CString) : Int × List U8 :=
  match JsonWriter.init buffer with
  | none => (-1, buffer)
  | some writer =>
      match model, version with
      | some model, some version =>
          let writer := writer.appendFormat (cText "\x7b\"id\":" ++ integerText messageId ++
            cText ",\"method\":\"mining.subscribe\",\"params\":[\"bitaxe/")
          let writer := writer.appendEscaped model
          let writer := writer.appendLiteral "/"
          let writer := writer.appendEscaped version
          (writer.appendLiteral "\"]\x7d\n").finish
      | _, _ => (-1, writer.buffer)

/-- `STRATUM_V1_encode_authorize` -/
def stratumV1EncodeAuthorize (buffer : List U8) (messageId : Int)
    (username password : Option CString) : Int × List U8 :=
  match JsonWriter.init buffer with
  | none => (-1, buffer)
  | some writer =>
      match username, password with
      | some username, some password =>
          let writer := writer.appendFormat (cText "\x7b\"id\":" ++ integerText messageId ++
            cText ",\"method\":\"mining.authorize\",\"params\":[")
          let writer := writer.appendString username
          let writer := writer.appendLiteral ","
          let writer := writer.appendString password
          (writer.appendLiteral "]\x7d\n").finish
      | _, _ => (-1, writer.buffer)

/-- `STRATUM_V1_encode_version_response` -/
def stratumV1EncodeVersionResponse (buffer : List U8) (messageId : Int)
    (version : Option CString) : Int × List U8 :=
  match JsonWriter.init buffer with
  | none => (-1, buffer)
  | some writer =>
      match version with
      | some version =>
          let writer := writer.appendFormat (cText "\x7b\"id\":" ++ integerText messageId ++
            cText ",\"result\":")
          let writer := writer.appendString version
          (writer.appendLiteral ",\"error\":null\x7d\n").finish
      | none => (-1, writer.buffer)

/-- `STRATUM_V1_encode_submit_share` -/
def stratumV1EncodeSubmitShare (buffer : List U8) (messageId : Int)
    (username jobId extranonce2 : Option CString) (ntime nonce : U32)
    (versionBits : Option U32) : Int × List U8 :=
  match JsonWriter.init buffer with
  | none => (-1, buffer)
  | some writer =>
      match username, jobId, extranonce2 with
      | some username, some jobId, some extranonce2 =>
          let writer := writer.appendFormat (cText "\x7b\"id\":" ++ integerText messageId ++
            cText ",\"method\":\"mining.submit\",\"params\":[")
          let writer := writer.appendString username
          let writer := writer.appendLiteral ","
          let writer := writer.appendString jobId
          let writer := writer.appendLiteral ","
          let writer := writer.appendString extranonce2
          let writer := writer.appendFormat (cText ",\"" ++ hexWord ntime ++ cText "\",\"" ++
            hexWord nonce ++ cText "\"")
          let writer := match versionBits with
            | some versionBits =>
                writer.appendFormat (cText ",\"" ++ hexWord versionBits ++ cText "\"")
            | none => writer
          (writer.appendLiteral "]\x7d\n").finish
      | _, _, _ => (-1, writer.buffer)

end EspMiner

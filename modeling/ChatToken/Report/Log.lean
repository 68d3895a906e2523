import ChatToken.Notice
import ChatToken.Text.Quoted

/-! # Log events

How notices are logged. An event has a level, the part of the program that it comes from, a message
and named values. Not every notice is logged.
-/
namespace ChatToken

inductive LogLevel where
  | error
  | warn
  | info
  | debug
  | trace
  deriving DecidableEq, Repr

def LogLevel.name : LogLevel → String
  | error => "ERROR"
  | warn => "WARN"
  | info => "INFO"
  | debug => "DEBUG"
  | trace => "TRACE"

inductive LogValue where
  | text (value : String)
  | number (value : Nat)
  | flag (value : Bool)
  deriving DecidableEq, Repr

structure LogEvent where
  level : LogLevel
  target : String
  message : String
  fields : List (String × LogValue) := []
  deriving DecidableEq, Repr

namespace LogEvent

def loaderTarget : String := "fileuploader_tokens::caching::loader"
def exchangeTarget : String := "fileuploader_tokens::correlator"
def tokensTarget : String := "fileuploader_tokens::tokens"
def errorTarget : String := "fileuploader_tokens::error"
def uploadsTarget : String := "fileuploader_tokens::uploads"
def metricsTarget : String := "fileuploader_tokens::metrics"
def streamTarget : String := "fileuploader_cli::irc"
def fetchTarget : String := "fileuploader_cli::cli"

def listenerText (id : Nat) : String := "ListenerId(" ++ toString id ++ ")"

def ofLoader {κ ε : Type} (cache : String) (shownKey : κ → String) (shownError : ε → String) :
    LoaderNotice κ ε → Option LogEvent
  | .accessed | .hit | .missed => none
  | .attached key => some (event .trace key "Attaching to running load")
  | .evicted key reason =>
    some (event .debug key ("Cached value failed validation: " ++ shownError reason))
  | .began key => some (event .debug key "Loading item")
  | .arrivedInvalid key reason =>
    some (event .debug key
      ("Loaded item is already invalid, not caching it: " ++ shownError reason))
  | .loadFailed key e => some (event .debug key ("Load failed: " ++ shownError e))
where
  event (level : LogLevel) (key : κ) (message : String) : LogEvent :=
    { level, target := loaderTarget, message,
      fields := [("cache", .text cache), ("key", .text (shownKey key))] }

def ofNotice (shownPeer address : Nat → String) : Notice → Option LogEvent
  | .loader notice => ofLoader "tokens" shownPeer TokenError.message notice
  | .pieceReceived size =>
    some { level := .trace, target := exchangeTarget, message := "Received partial response",
           fields := [("fragment_len", .number size)] }
  | .listenerRemoved p id =>
    some { level := .trace, target := exchangeTarget, message := "Removing response listener",
           fields := [peer p, ("listener", .text (listenerText id))] }
  | .markExpired p =>
    some { level := .debug, target := tokensTarget, fields := [peer p],
           message := "Retrying EXTJWT on previously unsupported peer" }
  | .requestWithheld p =>
    some { level := .debug, target := tokensTarget, fields := [peer p],
           message := "Not requesting a token from unsupported peer" }
  | .tokenAcquired p size =>
    some { level := .debug, target := tokensTarget, message := "Acquired token",
           fields := [peer p, ("len", .number size)] }
  | .supportMissing p =>
    some { level := .info, target := tokensTarget, fields := [peer p],
           message := "Peer does not support EXTJWT" }
  | .requestFailed p e =>
    some { level := .warn, target := tokensTarget, message := "Failed to acquire token",
           fields := [("error", .text e.message), peer p] }
  | .loadLost =>
    some { level := .error, target := errorTarget, message := "Token request dropped",
           fields := [("error", .text "oneshot canceled")] }
  | .peerForgotten p hadToken wasMarked =>
    some { level := .debug, target := tokensTarget, message := "Forgot peer",
           fields := [peer p, ("had_token", .flag hadToken), ("was_unsupported", .flag wasMarked)] }
  | .uploadsWithoutToken p e uploads =>
    some { level := .warn, target := uploadsTarget, message := "Uploading without token",
           fields := [("error", .text e.message), peer p, ("uploads", .number uploads)] }
  | .connected p => some (stream .info "Connected" [addr p])
  | .registered p nick => some (stream .info "Registered" [addr p, ("nick", .text nick)])
  | .lineSent p line => some (stream .trace ("> " ++ line) [addr p])
  | .lineReceived p line => some (stream .trace ("< " ++ line) [addr p])
  | .readFailed reason => some (stream .warn "Read failed" [("error", .text reason)])
  | .writeFailed reason => some (stream .warn "Failed to send" [("error", .text reason)])
  | .streamEnded p => some (stream .info "Disconnected" [addr p])
  | .tokensNotAdvertised p =>
    some { level := .warn, target := fetchTarget, fields := [addr p],
           message := "Server does not advertise EXTJWT, asking anyway" }
  | .tokenFetched attempt cached age =>
    some { level := .info, target := fetchTarget, message := "Got token",
           fields := [("attempt", .number attempt), ("cached", .flag cached),
             ("age", .text age.text)] }
  | .markHit | .peerMarked _ | .requestEnded _ _ | .uploadsCounted _ _ _ => none
where
  peer (p : Nat) : String × LogValue := ("peer", .text (shownPeer p))
  addr (p : Nat) : String × LogValue := ("addr", .text (address p))
  stream (level : LogLevel) (message : String) (fields : List (String × LogValue)) : LogEvent :=
    { level, target := streamTarget, message, fields }

end LogEvent

end ChatToken

import ChatToken.Loader.Basic
import ChatToken.Token.Error
import ChatToken.Time.Span

/-! # Notices

Everything that is reported at work. A notice of a token manager or an exchange carries sizes of
tokens and pieces, never their text. Streams report the lines that pass.
-/
namespace ChatToken

inductive Notice where
  | loader (notice : LoaderNotice Nat TokenError)
  | pieceReceived (size : Nat)
  | listenerRemoved (peer : Nat) (listener : Nat)
  /-- A mark had expired when it was looked at. -/
  | markExpired (peer : Nat)
  /-- A lookup was answered by a mark. -/
  | markHit
  | peerMarked (marksKept : Nat)
  | requestWithheld (peer : Nat)
  | requestEnded (status : String) (millis : Nat)
  | tokenAcquired (peer : Nat) (size : Nat)
  | supportMissing (peer : Nat)
  | requestFailed (peer : Nat) (error : TokenError)
  /-- Somebody who waited for a load found out that it was lost. -/
  | loadLost
  | peerForgotten (peer : Nat) (hadToken wasMarked : Bool)
  | uploadsWithoutToken (peer : Nat) (error : TokenError) (uploads : Nat)
  | uploadsCounted (attached skipped failed : Nat)
  | connected (peer : Nat)
  | registered (peer : Nat) (nick : String)
  | lineSent (peer : Nat) (line : String)
  | lineReceived (peer : Nat) (line : String)
  | readFailed (reason : String)
  | writeFailed (reason : String)
  | streamEnded (peer : Nat)
  /-- A server that does not advertise tokens is asked all the same. -/
  | tokensNotAdvertised (peer : Nat)
  | tokenFetched (attempt : Nat) (cached : Bool) (age : Span)
  deriving DecidableEq, Repr

end ChatToken

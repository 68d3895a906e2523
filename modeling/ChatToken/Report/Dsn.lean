import ChatToken.Report.Url

/-! # Where errors are reported

The address of a project that internal errors are sent to: a locator of the web whose user is the
public key and whose last segment is the project.
-/
namespace ChatToken

structure Dsn where
  secure : Bool
  publicKey : List Char
  secretKey : Option (List Char)
  host : List Char
  port : Option Nat
  /-- The path in front of the project, between slashes. -/
  path : List Char
  project : List Char
  deriving DecidableEq, Repr

namespace Dsn

inductive Error where
  | invalidUrl | noPath | noProject | noUser | invalidScheme
  deriving DecidableEq, Repr

def Error.text : Error → String
  | invalidUrl => "no valid url provided"
  | noPath => "empty path"
  | noProject => "invalid project id"
  | noUser => "username is empty"
  | invalidScheme => "no valid scheme"

def trimSlashes (cs : List Char) : List Char :=
  ((cs.dropWhile (· == '/')).reverse.dropWhile (· == '/')).reverse

def ofUrl (u : Url) : Except Error Dsn :=
  let path := trimSlashes u.path
  let project := (path.reverse.takeWhile (· != '/')).reverse
  let front := (path.take (path.length - project.length)).dropLast
  if u.path = ['/'] then .error .noPath
  else if project.isEmpty then .error .noProject
  else if u.user.isEmpty then .error .noUser
  else if u.scheme ≠ "http".toList ∧ u.scheme ≠ "https".toList then .error .invalidScheme
  else
    match u.host with
    | none => .error .invalidUrl
    | some host =>
      .ok {
        secure := u.scheme = "https".toList
        publicKey := u.user
        secretKey := u.password
        host
        port := u.port
        path := if front.isEmpty || front = ['/'] then ['/'] else '/' :: front ++ ['/']
        project }

def parse (s : String) : Except Error Dsn :=
  match Url.ofChars? s.toList with
  | some u => ofUrl u
  | none => .error .invalidUrl

def text (d : Dsn) : String :=
  let port :=
    match d.port with
    | some p => ":" ++ toString p
    | none => ""
  (if d.secure then "https" else "http") ++ "://" ++ String.ofList d.publicKey ++ ":" ++
    String.ofList (d.secretKey.getD []) ++ "@" ++ String.ofList d.host ++ port ++
    String.ofList d.path ++ String.ofList d.project

end Dsn

end ChatToken

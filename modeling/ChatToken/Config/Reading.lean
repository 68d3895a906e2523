import ChatToken.Config.Basic
import ChatToken.Time.Reading
import ChatToken.Yaml.Decode

/-! # Reading a configuration

A configuration is the only document of a YAML file. What the file does not mention keeps its
default, but a file of nothing but white space is refused.
-/
namespace ChatToken.Config

inductive Error where
  | unreadable (path reason : String)
  | empty
  | malformed (e : Yaml.DecodeError)
  deriving DecidableEq, Repr

namespace Error

def message : Error → String
  | unreadable path _ => "failed to read config file " ++ path
  | empty => "config file empty"
  | malformed _ => "failed to parse config YAML"

def causes : Error → List String
  | unreadable _ reason => [reason]
  | empty => []
  | malformed e => [e.text]

end Error

end ChatToken.Config

namespace ChatToken

open Yaml (Reader)

def LogFilter.reader : Reader LogFilter := .parsed fun s =>
  match LogFilter.ofString? s with
  | some l => .ok l
  | none => .error (.unknownVariant s.toList (LogFilter.all.map LogFilter.name))

def Span.reader : Reader Span := .text "a duration" fun cs =>
  match Span.ofChars? cs with
  | some d => .ok d
  | none => .error (.wrongValue cs "a duration")

def Dsn.reader : Reader Dsn := .parsed fun s =>
  match Dsn.parse s with
  | .ok d => .ok d
  | .error e => .error (.custom e.text)

def Logging.reader : Reader Logging := .record "struct Logging" [
  .of "level" LogFilter.reader fun r level => { r with level },
  .of "format" (.variant LogFormat.names) fun r format => { r with format },
  .of "enable_backtraces" .boolean fun r b => { r with enableBacktraces := b }] {}

def MetricsConfig.reader (server : Option String) : Reader MetricsConfig :=
  .record "struct Metrics" [
    .of "statsd" (.option .string) fun r statsd => { r with statsd },
    .of "prefix" .string fun r namePrefix => { r with namePrefix },
    .of "custom_tags" .table fun r customTags => { r with customTags }] { statsd := server }

def TokenConfig.reader : Reader TokenConfig := .record "struct TokenConfig" [
  .of "max_token_age" Span.reader fun r maxTokenAge => { r with maxTokenAge },
  .of "unsupported_ttl" Span.reader fun r unsupportedTtl => { r with unsupportedTtl },
  .of "request_timeout" Span.reader fun r requestTimeout => { r with requestTimeout },
  .of "service" (.option .string) fun r service => { r with service }] {}

namespace Config

/-- Reads a configuration. Metrics go to `server` where it does not say where. -/
def reader (server : Option String) : Reader Config := .record "struct Config" [
  .of "logging" Logging.reader fun r logging => { r with logging },
  .of "metrics" (MetricsConfig.reader server) fun r metrics => { r with metrics },
  .of "sentry_dsn" (.option Dsn.reader) fun r dsn => { r with dsn },
  .of "tokens" TokenConfig.reader fun r tokens => { r with tokens }] (.default server)

def parse (server : Option String) (text : String) : Except Error Config :=
  if Text.isBlankText text.toList then .error .empty
  else
    match Yaml.decode (reader server) (.default server) text with
    | .ok c => .ok c
    | .error e => .error (.malformed e)

inductive Obstacle where
  | missing | directory | notDirectory | denied | longName | nullInName
  deriving DecidableEq, Repr

def Obstacle.text : Obstacle → String
  | missing => "No such file or directory (os error 2)"
  | directory => "Is a directory (os error 21)"
  | notDirectory => "Not a directory (os error 20)"
  | denied => "Permission denied (os error 13)"
  | longName => "File name too long (os error 36)"
  | nullInName => "file name contained an unexpected NUL byte"

/-- What reading the file at a path led to. -/
structure File where
  path : String
  content : Except Obstacle ByteArray

def ofFile (server : Option String) : Option File → Except Error Config
  | none => .ok (.default server)
  | some f =>
    match f.content with
    | .error o => .error (.unreadable f.path o.text)
    | .ok bytes =>
      match String.fromUTF8? bytes with
      | some text => parse server text
      | none => .error (.unreadable f.path "stream did not contain valid UTF-8")

end Config

end ChatToken

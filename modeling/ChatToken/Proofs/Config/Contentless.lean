import ChatToken.Config.Reading
import ChatToken.Proofs.Yaml.Contentless

/-! # Configuration files without content

A file of white space is refused, but a comment in it is enough to hide from the reader that there
is nothing to read: YAML passes over comments, sees no document, and the defaults are taken. Only a
character that YAML does not pass over makes the difference, which is a tab, white space that is
taken for text, or one that may not stand in a text at all.
-/
namespace ChatToken.Yaml

namespace Document

theorem ofLexemes_end (m : Mark) : ofLexemes ⟨[], .ok m⟩ = {} := rfl

theorem close_events (d : Document) (r : Reading) : (d.close r).events = d.events := by
  unfold close
  split
  · rfl
  · rfl

/-- A document that starts with a plain scalar is that scalar, whatever follows. -/
theorem ofLexemes_text {p : Piece} {text : List Char} (hp : p.lexeme = .scalar text .plain)
    (rest : List Piece) (ending : Except Fault Mark) :
    (ofLexemes ⟨p :: rest, ending⟩).events = [(p.start, .scalar {} text .plain)] := by
  obtain ⟨lexeme,start,stop⟩ := p
  obtain rfl : lexeme = .scalar text .plain := hp
  let d : Document := { events := [(start, .scalar {} text .plain)] }
  let r : Reading := ⟨⟨rest, ending⟩, standardHandles, []⟩
  calc (ofLexemes ⟨⟨.scalar text .plain, start, stop⟩ :: rest, ending⟩).events
      = (readEvents (4 * rest.length + 11) d r).events := rfl
    _ = (d.close r).events := rfl
    _ = [(start, .scalar {} text .plain)] := close_events d r

/-- A document that no value can be read from: there is a fault in front of its first node, or its
only node is text. -/
def Useless (d : Document) : Prop :=
  (d.events = [] ∧ ∃ f, d.failure = some f) ∨
    ∃ m text, text ≠ [] ∧ d.events = [(m, .scalar {} text .plain)]

theorem useless_ofLexemes {l : Lexemes} (h : l.Useless) : (ofLexemes l).Useless := by
  obtain ⟨pieces,ending⟩ := l
  rcases h with ⟨hpieces,f,hending⟩ | ⟨p,rest,hpieces,text,hp,htext⟩
  · obtain ⟨rfl,rfl⟩ : pieces = [] ∧ ending = .error f := ⟨hpieces,hending⟩
    exact .inl ⟨rfl,.malformed f,rfl⟩
  · obtain rfl : pieces = p :: rest := hpieces
    exact .inr ⟨p.start,text,htext,ofLexemes_text hp rest ending⟩

theorem Useless.not_empty {d : Document} (h : d.Useless) :
    (d.events.isEmpty && d.failure.isNone) = false := by
  rcases h with ⟨_,f,hf⟩ | ⟨m,text,_,hevents⟩
  · simp [hf]
  · simp [hevents]

end Document

variable {α : Type}

/-- Text is no mapping. -/
theorem Reader.mapping_text {σ : Type} (expected : String) (key : Reader α)
    (value : σ → α → Reader σ) (start : σ) (s : Site) (m : Mark) {text : List Char}
    (htext : text ≠ []) :
    mapping expected key value start s [(m, .scalar {} text .plain)] =
      .error (.complaint (.wrongKind (Kind.ofPlain text) expected) (some (m, s.path))) := by
  cases text with
  | nil => exact absurd rfl htext
  | cons x rest => rfl

theorem Reader.mapping_nil {σ : Type} (expected : String) (key : Reader α)
    (value : σ → α → Reader σ) (start : σ) {s : Site} {f : Failure}
    (hf : s.document.failure = some f) :
    mapping expected key value start s [] = .error (.failure f) := by
  have hmissing : ∀ β, (s.missing : Except DecodeError β) = .error (.failure f) := by
    intro β
    rw [Site.missing, hf]
  unfold mapping Site.whole Site.enter Site.first
  dsimp only
  rw [hmissing]
  rfl

theorem Reader.record_useless {d : Document} (h : d.Useless) (expected : String)
    (fields : List (Field α)) (start : α) :
    ∃ e, record expected fields start { document := d } d.events = .error e := by
  rcases h with ⟨hevents,f,hf⟩ | ⟨m,text,htext,hevents⟩
  · refine ⟨.failure f,?_⟩
    rw [hevents]
    change (mapping _ _ _ _ _ [] >>= _) = _
    rw [mapping_nil _ _ _ _ hf]
    rfl
  · refine ⟨.complaint (.wrongKind (Kind.ofPlain text) expected) (some (m, [])),?_⟩
    rw [hevents]
    change (mapping _ _ _ _ _ [(m, .scalar {} text .plain)] >>= _) = _
    rw [mapping_text _ _ _ _ _ _ htext]
    rfl

/-- A record is read from a text without content in one case only: there is nothing in the text that
YAML takes for text or refuses. Then it is `none_`. -/
theorem decode_of_isContentless {text : String} (h : isContentless text.toList) (expected : String)
    (fields : List (Reader.Field α)) (start none_ : α) (a : α) :
    decode (Reader.record expected fields start) none_ text = .ok a ↔
      a = none_ ∧ isSpaced text.toList ∧ text.toList.all isPrintable := by
  obtain ⟨hend,huseless⟩ := Lexemes.ofChars_of_isContentless h
  unfold decode
  dsimp only
  rw [Document.ofString]
  by_cases hpassed : isSpaced text.toList ∧ text.toList.all isPrintable
  · obtain ⟨m,hm⟩ := hend hpassed
    rw [hm, Document.ofLexemes_end]
    change Except.ok none_ = Except.ok a ↔ _
    constructor
    · rintro ⟨⟩
      exact ⟨rfl,hpassed⟩
    · rintro ⟨rfl,-⟩
      rfl
  · have hread := Document.useless_ofLexemes (huseless hpassed)
    obtain ⟨e,he⟩ := Reader.record_useless hread expected fields start
    rw [hread.not_empty, he]
    change Except.error e = Except.ok a ↔ _
    constructor
    · rintro ⟨⟩
    · intro hboth
      exact absurd hboth.2 hpassed

end ChatToken.Yaml

namespace ChatToken.Config

theorem fromUTF8?_toUTF8 (t : String) : String.fromUTF8? t.toUTF8 = some t := by
  unfold String.fromUTF8?
  have hvalid : t.toUTF8.IsValidUTF8 := t.isValidUTF8
  rw [dif_pos hvalid]
  rfl

/-- A file without content is refused as empty if it is white space. If it is not, it is taken as
the defaults and as nothing else, unless there is other white space than spaces and line ends
outside its comments, or a character that may not stand in a text. -/
theorem parse_of_isContentless (server : Option String) (path : String) {t : String}
    (h : Yaml.isContentless t.toList) :
    (parse server t = .error .empty ↔ Text.isBlankText t.toList) ∧
    (∀ c, parse server t = .ok c ↔ c = .default server ∧ Text.isBlankText t.toList = false ∧
      Yaml.isSpaced t.toList ∧ t.toList.all Yaml.isPrintable) ∧
    ofFile server (some ⟨path, .ok t.toUTF8⟩) = parse server t := by
  have hdecode : ∀ c, Yaml.decode (reader server) (.default server) t = .ok c ↔
      c = .default server ∧ Yaml.isSpaced t.toList ∧ t.toList.all Yaml.isPrintable :=
    fun c => Yaml.decode_of_isContentless h _ _ _ _ c
  refine ⟨?_,?_,?_⟩
  · unfold parse
    cases hblank : Text.isBlankText t.toList with
    | true => simp
    | false =>
      generalize Yaml.decode _ _ _ = r
      cases r <;> simp
  · intro c
    unfold parse
    cases hblank : Text.isBlankText t.toList with
    | true => simp
    | false =>
      have hc := hdecode c
      generalize Yaml.decode _ _ _ = r at hc ⊢
      cases r with
      | error e => simpa using hc
      | ok c' => simpa using hc
  · unfold ofFile
    dsimp only
    rw [fromUTF8?_toUTF8]

/-- Comments between spaces and line ends are taken as the defaults, a comment behind a tab is
refused. -/
theorem tab_before_comment_refused :
    Yaml.isContentless "# a\n\n  # b\r\n".toList ∧ Yaml.isContentless "\t# a\n".toList ∧
    parse (some "localhost:8125") "# a\n\n  # b\r\n" = .ok (.default (some "localhost:8125")) ∧
    ∀ c, parse (some "localhost:8125") "\t# a\n" ≠ .ok c := by
  have hspaces : Yaml.isContentless "# a\n\n  # b\r\n".toList := by decide +kernel
  have htab : Yaml.isContentless "\t# a\n".toList := by decide +kernel
  refine ⟨hspaces,htab,?_,?_⟩
  · have hparse := (parse_of_isContentless (some "localhost:8125") "config.yaml" hspaces).2.1
    exact (hparse _).mpr ⟨rfl,by decide +kernel⟩
  · intro c hc
    have hparse := (parse_of_isContentless (some "localhost:8125") "config.yaml" htab).2.1 c
    exact absurd (hparse.mp hc).2 (by decide +kernel)

/-- The defaults are taken from a file that holds nothing but a comment. -/
theorem comment_taken_as_defaults :
    Yaml.isContentless "# only a comment".toList = true ∧
    parse none "# only a comment" = .ok {} ∧
    ofFile none (some ⟨"config.yaml", .ok "# only a comment".toUTF8⟩) = .ok {} := by
  decide +kernel

end ChatToken.Config

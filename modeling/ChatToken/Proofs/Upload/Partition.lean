import ChatToken.Proofs.Network.Lookups
import ChatToken.Proofs.Network.Tokens
import ChatToken.Proofs.Upload.Slots

/-! # What a batch makes of its uploads

Each upload of a batch that is over has one fate: it carries a token that was acquired from its own
connection, or it is as it was. Uploads that waited for the same load share its fate.
-/
namespace ChatToken

/-! ## Where tokens come from -/

namespace Network

section
variable {peers : List Peer} {configs : List TokenConfig} {m p : Nat} {es : List Event}

def HasAcquired (peers : List Peer) (configs : List TokenConfig) (m p : Nat) (es : List Event)
    (token : String) : Prop :=
  ∃ before e id tok, before ++ [e] <+: es ∧
    (start peers configs).Acquires before e m p id tok ∧ tok.value = token

theorem HasAcquired.append {token : String} (h : HasAcquired peers configs m p es token)
    {later : List Event} (hlater : es <+: later) : HasAcquired peers configs m p later token := by
  obtain ⟨before,e,id,tok,hes,hacquires⟩ := h
  exact ⟨before,e,id,tok,hes.trans hlater,hacquires⟩

theorem acquired_of_ready {tok : Token} (hm : m < configs.length) (hp : p < peers.length)
    (h : (((start peers configs).after es).lookup m p).1 = .ready tok) :
    HasAcquired peers configs m p es tok.value := by
  have hm' : m < ((start peers configs).after es).managers.length := by
    rwa [reached_managers_length]
  obtain ⟨hvalid,_⟩ := token_of_ready (reached_orderly peers configs es) hm' h
  have hnone : (start peers configs).about m p ≠ .valid tok := by
    rw [about, start_manager]
    simp [Manager.about, Manager.new]
  obtain ⟨before,e,later,id,hes,hr,he,_⟩ := token_since (reached_orderly peers configs [])
    (by simpa [start] using hm) hnone hvalid
  refine ⟨before,e,id,tok,?_,reached_acquires peers configs ⟨p,hp⟩ hr he,rfl⟩
  rw [hes]
  exact ⟨later,by simp⟩

theorem acquired_of_pending {tok : Token} {ref : LoadRef} {more : List Event}
    (hm : m < configs.length) (hp : p < peers.length)
    (hl : (((start peers configs).after es).lookup m p).1 = .pending ref)
    (he : ((start peers configs).after (es ++ .lookup m p :: more)).ending? ref =
      some (.loaded tok)) :
    HasAcquired peers configs m p (es ++ .lookup m p :: more) tok.value := by
  have hn := reached_orderly peers configs
  have hm' : ∀ es, m < ((start peers configs).after es).managers.length := fun es => by
    rwa [reached_managers_length]
  obtain ⟨id,rfl,hr,hopen⟩ := running_of_lookup (hn es) (hm' es) hl
  rw [after_append, after_cons] at he
  obtain ⟨a,e,b,rfl,hends⟩ := (ending_iff_ends ((hn es).step _) hopen).mp he
  have hr' := running_after ((hn es).step _) (by rw [step_managers_length]; exact hm' es) hr a hends.1
  rw [← after_cons, ← after_append] at hends hr'
  exact ⟨_,e,id,tok,⟨b,by simp⟩,reached_acquires peers configs ⟨p,hp⟩ hr' hends,rfl⟩

end

end Network

namespace Attaching

open Network (Event start HasAcquired)
open UploadFate (tally Told)

/-! ## How far a batch gets -/

section
variable {n : Network} {m : Nat} {uploads : List Upload} {course : List Event} {a : Attaching}
  {done : List (Nat × UploadFate)}

theorem after_of_over (h : a.isOver = true) (steps : List Step) : a.after m steps = a := by
  induction steps with
  | nil => rfl
  | cons s steps ih =>
    rw [after, List.foldl_cons, step_of_over h]
    exact ih

/-- A batch that is not over has taken on as many uploads as it has had steps for, if there are so
many. -/
theorem taken_after (hn : n.Orderly) (h : Taking n m uploads course a done) (steps : List Step)
    (hopen : (a.after m steps).isOver = false) :
    (a.after m steps).taken = min (a.taken + steps.count .enlist) uploads.length := by
  induction steps generalizing course a done with
  | nil => exact (Nat.min_eq_left h.taken).symm
  | cons s steps ih =>
    obtain ⟨done',h' | h'⟩ := Sound.step hn ⟨done,.inl h⟩ s
    · rw [after, List.foldl_cons, ← after] at hopen ⊢
      rw [ih h' hopen]
      obtain ⟨hevent,henlist,hlook⟩ := step_of_open (m := m) h.isOver
      cases s with
      | event e =>
        rw [(hevent e).1]
        simp
      | enlist =>
        have hlength := h.length_eq
        have htaken := h.taken
        have ht := took m a
        rw [henlist, List.count_cons_self]
        generalize a.enlist m = a' at ht
        cases ht with
        | none hall => omega
        | next hnext _ =>
          obtain ⟨hlt,_⟩ := List.getElem?_eq_some_iff.mp hnext
          dsimp only
          omega
      | look =>
        have htaken : a.look.taken = a.taken := by
          have hl := a.looked
          generalize a.look = a' at hl
          cases hl <;> rfl
        rw [hlook, htaken]
        simp
    · have hover := after_of_over (m := m) h'.isOver steps
      rw [after, List.foldl_cons, ← after, hover, h'.isOver] at hopen
      cases hopen

/-- The batch ends when it looks once all loads that it waits for have ended. -/
theorem Taking.ends (h : Taking n m uploads course a done) (hall : uploads.length ≤ a.taken)
    (hended : ∀ w ∈ a.batch.waiting, (a.net.ending? w.ref).isSome = true) :
    (a.step m .look).isOver = true := by
  have hresolved : a.observed.batch.isResolved = true := by
    rw [Attaching.observed, UploadBatch.observe_eq, UploadBatch.isResolved, List.all_map,
      List.all_eq_true]
    intro w hw
    simp [WaitingUploads.seen, Option.isSome_or, hended w hw]
  rw [(step_of_open h.isOver).2.2]
  have hl := a.looked
  generalize a.look = a' at hl
  cases hl with
  | early hlt => exact absurd (h.length_eq ▸ hlt) (Nat.not_lt.mpr hall)
  | waits _ hwaits =>
    rw [hresolved] at hwaits
    cases hwaits
  | ends => rfl

end

/-! ## What has become of the uploads -/

/-- What has become of the uploads of a batch `b` that is over: `fates` lists it in their order. -/
structure Partitions (n : Network) (m : Nat) (uploads : List Upload) (course : List Event)
    (b : UploadBatch) (fates : List UploadFate) : Prop where
  length : fates.length = uploads.length
  /-- Each upload is counted in the class of its fate, and in no other. -/
  counted : b.summary = tally fates
  total : b.summary.attached + b.summary.skipped + b.summary.failed = uploads.length
  kept : b.uploads.length = uploads.length
  leaves : ∀ (i : Nat) (u : Upload) (f : UploadFate), uploads[i]? = some u → fates[i]? = some f →
    ∃ later, b.uploads[i]? = some later ∧ f.Leaves u later
  told : ∀ (i : Nat) (u : Upload) (f : UploadFate), uploads[i]? = some u → fates[i]? = some f →
    Told n m u.peer course f ∨ ∃ w ∈ b.waiting, i ∈ w.indices
  /-- Uploads that have waited together belong to one connection and have one fate. -/
  together : ∀ w ∈ b.waiting, ∃ ending, (n.after course).ending? w.ref = some ending ∧
    ∀ i ∈ w.indices, fates[i]? = some (.ofOutcome ending.outcome) ∧
      (uploads[i]?).map (·.peer) = some w.peer

section
variable {n : Network} {m : Nat} {uploads : List Upload} {course : List Event} {a : Attaching}
  {done : List (Nat × UploadFate)}

theorem Concluded.partitions (h : Concluded n m uploads course a done) :
    ∃ fates, Partitions n m uploads course a.batch fates := by
  obtain ⟨fates,hlength,hperm,hmem⟩ := UploadFate.exists_listed h.places
  have hcounted : a.batch.summary = tally fates := by
    rw [h.summary, UploadFate.tally_of_perm hperm]
  exact ⟨fates,{
    length := hlength
    counted := hcounted
    total := by rw [hcounted, UploadFate.tally_total, hlength]
    kept := by rw [h.settled, UploadFate.settle_length]
    leaves := by
      intro i u f hu hf
      refine ⟨f.apply u,?_,UploadFate.leaves_apply f u⟩
      rw [h.settled, UploadFate.settle_of_mem (h.places.nodup_iff.mpr List.nodup_range)
        ((hmem i f).mp hf), hu]
      rfl
    told := fun i u f hu hf => (h.told i f ((hmem i f).mp hf)).imp_left fun ht => ht u hu
    together := by
      intro w hw
      obtain ⟨ending,he,hdone⟩ := h.ended w hw
      exact ⟨ending,he,fun i hi => ⟨(hmem i _).mpr (hdone i hi),(h.waits w hw).peers i hi⟩⟩ }⟩

end

/-- Only a load that has brought a token attaches one. -/
theorem ofOutcome_eq_attached {ending : Ending Token TokenError} {token : String}
    (h : UploadFate.ofOutcome ending.outcome = .attached token) :
    ∃ tok, ending = .loaded tok ∧ tok.value = token := by
  cases ending with
  | loaded tok => exact ⟨tok,rfl,UploadFate.attached.inj h⟩
  | failed e => cases e <;> cases h
  | lost => cases h

/-- The token of an upload was acquired from its own connection. -/
theorem Partitions.acquired {peers : List Peer} {configs : List TokenConfig} {m : Nat}
    {uploads : List Upload} {before course : List Event} {a : Attaching}
    {fates : List UploadFate}
    (h : Partitions ((start peers configs).after before) m uploads course a.batch fates)
    (hw : ∀ w ∈ a.batch.waiting,
      WaitsFor ((start peers configs).after before) m uploads course w)
    (hm : m < configs.length) {i : Nat} {u : Upload} (hu : uploads[i]? = some u)
    (hp : u.peer < peers.length) {token : String} (hf : fates[i]? = some (.attached token)) :
    HasAcquired peers configs m u.peer (before ++ course) token := by
  rcases h.told i u _ hu hf with ht | ⟨w,hw',hi⟩
  · cases ht with
    | ready hes _ hl =>
      rw [← Network.after_append] at hl
      exact (Network.acquired_of_ready hm hp hl).append
        ((List.prefix_append_right_inj before).mpr hes)
  · obtain ⟨ending,he,htogether⟩ := h.together w hw'
    obtain ⟨hfate,hpeer⟩ := htogether i hi
    have hattached := Option.some.inj (hfate.symm.trans hf)
    obtain ⟨tok,rfl,rfl⟩ := ofOutcome_eq_attached hattached
    obtain ⟨es,⟨more,rfl⟩,_,hl⟩ := (hw w hw').asked
    rw [hu] at hpeer
    have hpeer' : u.peer = w.peer := Option.some.inj hpeer
    have hsplit : before ++ (es ++ [.lookup m w.peer] ++ more) =
        (before ++ es) ++ .lookup m w.peer :: more := by simp
    rw [← Network.after_append] at hl he
    rw [hsplit] at he ⊢
    rw [hpeer'] at hp ⊢
    exact Network.acquired_of_pending hm hp hl he

/-- Whatever happens while a batch of uploads is at work, nothing that it reads at a place of its lists
is missing, and it is over when it looks behind the end of all loads that it waits for. Then each
upload is counted in one class. It carries a token that was acquired from its own connection, or is as
it was, and so are its connection and the rest of its metadata. Uploads that have waited for the same
load are in the same class, with the same token. -/
theorem uploads_partitioned (peers : List Peer) (configs : List TokenConfig)
    (before : List Event) (m : Fin configs.length) (uploads : List Upload)
    (hpeers : ∀ u ∈ uploads, u.peer < peers.length) (steps : List Step) :
    let n := (start peers configs).after before
    let course := (of n uploads).course m steps
    let a := (of n uploads).after m steps
    (n.after course).Agrees a.net ∧
    (∃ s, (SlotAttaching.of n uploads).after? m steps = some s ∧ s.Aligned a) ∧
    (uploads.length ≤ steps.count .enlist →
      (∀ w ∈ a.batch.waiting, (a.net.ending? w.ref).isSome = true) →
      (a.step m .look).isOver = true) ∧
    (a.isOver = true → ∃ fates, Partitions n m uploads course a.batch fates ∧
      ∀ (i : Nat) (u : Upload) (token : String), uploads[i]? = some u →
        fates[i]? = some (.attached token) →
        HasAcquired peers configs m u.peer (before ++ course) token) := by
  intro n course a
  have hn : n.Orderly := Network.reached_orderly peers configs before
  have hsound : Sound n m uploads course a := sound_after hn m uploads steps
  have hslots : (SlotAttaching.of n uploads).Aligned (of n uploads) :=
    ⟨rfl,rfl,rfl,⟨rfl,rfl,fun _ => rfl,rfl,rfl⟩⟩
  have hstart : Taking n m uploads [] (of n uploads) [] := taking_of n m uploads
  obtain ⟨done,h | h⟩ := hsound
  · refine ⟨h.net ▸ .refl _,hslots.after hn ⟨[],.inl hstart⟩ steps,fun hall hended => ?_,?_⟩
    · refine h.ends ?_ hended
      rw [taken_after hn hstart steps h.isOver]
      exact Nat.le_min.mpr ⟨hall.trans (Nat.le_add_left _ _),Nat.le_refl _⟩
    · intro hover
      rw [h.isOver] at hover
      cases hover
  · refine ⟨h.net,hslots.after hn ⟨[],.inl hstart⟩ steps,fun _ _ => ?_,fun _ => ?_⟩
    · rw [step_of_over h.isOver]
      exact h.isOver
    · obtain ⟨fates,hfates⟩ := h.partitions
      refine ⟨fates,hfates,fun i u token hu hf => ?_⟩
      exact hfates.acquired h.waits m.isLt hu (hpeers u (List.mem_of_getElem? hu)) hf

/-- Two uploads of one connection wait for its load and get its token; an upload of a connection that
does not advertise tokens is skipped. -/
theorem waiting_uploads_attached :
    let peers : List Peer := [{ name := "irc" }, { name := "old", capabilities := {} }]
    let uploads : List Upload := [{ peer := 0 }, { peer := 1 }, { peer := 0 }]
    let n := (start peers [{}]).after [.pass 1]
    let steps : List Step := [.enlist, .enlist, .event (.pass 1), .enlist, .event (.turn ⟨0,0⟩),
      .event (.deliver 0 (.of "EXTJWT" ["*", "*", "abc"])), .event (.turn ⟨0,0⟩), .look]
    let a := (of n uploads).after 0 steps
    (∀ u ∈ uploads, u.peer < peers.length) ∧
    a.batch.uploads.map (·.token?) = [some "abc", none, some "abc"] ∧
    ∃ fates, Partitions n 0 uploads ((of n uploads).course 0 steps) a.batch fates ∧
      tally fates = { attached := 2, skipped := 1 } := by
  intro peers uploads n steps a
  have hpeers : ∀ u ∈ uploads, u.peer < peers.length := by decide
  have hover : a.isOver = true := by decide +kernel
  obtain ⟨_,_,_,hend⟩ := uploads_partitioned peers [{}] [.pass 1] ⟨0,by decide⟩ uploads hpeers steps
  obtain ⟨fates,hfates,_⟩ := hend hover
  refine ⟨hpeers,by decide +kernel,fates,hfates,?_⟩
  rw [← hfates.counted]
  decide +kernel

end Attaching

end ChatToken

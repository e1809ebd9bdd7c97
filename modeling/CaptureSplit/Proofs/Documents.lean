/-
CaptureSplit.Proofs.Documents — dissections that break off.

A document is read from its front, so what its front comes to does not
depend on what follows. A program that dies while it prints leaves the front
of a document. If that breaks off within a tag it is malformed; if not, it
is read and yields the packets that it ends (`read_of_append`), and nothing
in it tells it from a document of fewer packets.
-/
import CaptureSplit.Pdml

namespace CaptureSplit

namespace Markup

/-- The tokens of the front of a document are the first ones of the whole, and
a malformed one if the front breaks off within another. -/
theorem exists_tokensFrom_append (front back : Bytes) : ∀ (position : Nat) (context : Context),
    ∃ shared more, tokensFrom position context (front ++ back) = shared ++ more ∧
      (tokensFrom position context front = shared ∨
        tokensFrom position context front = shared ++ [.malformed]) := by
  induction front with
  | nil =>
    intro position context
    refine ⟨[], tokensFrom position context back, rfl, ?_⟩
    unfold tokensFrom
    split
    · exact .inl rfl
    · exact .inl rfl
    · exact .inr rfl
  | cons b front ih =>
    intro position context
    simp only [List.cons_append, tokensFrom]
    cases step (context.reaching position) b with
    | mk next token =>
      obtain ⟨shared, more, hwhole, hfront⟩ := ih (position + 1) next
      cases token with
      | none => exact ⟨shared, more, hwhole, hfront⟩
      | some token => exact ⟨token :: shared, more, by simp [hwhole], by simpa using hfront⟩

/-- A token is the last one looked at, or has an event of its own in front of
those of the tokens behind it. -/
theorem eventsFrom_cons (names : List Bytes) (token : Token) :
    (∀ more, eventsFrom names (token :: more) = eventsFrom names [token]) ∨
      ∃ event inner, ∀ more, eventsFrom names (token :: more) = event :: eventsFrom inner more := by
  cases token with
  | malformed => exact .inl fun _ => rfl
  | opening content =>
    by_cases hempty : content.getLast? = some 0x2F
    · exact .inr ⟨_, _, fun more => by rw [eventsFrom, if_pos hempty]⟩
    · exact .inr ⟨_, _, fun more => by rw [eventsFrom, if_neg hempty]⟩
  | closing content =>
    cases names with
    | nil => exact .inl fun _ => rfl
    | cons name outer =>
      by_cases hname : endName content = name
      · exact .inr ⟨.closed name, outer, fun more => by simp only [eventsFrom, if_pos hname]⟩
      · exact .inl fun more => by simp only [eventsFrom, if_neg hname]

/-- Behind the events of the first tokens come those of the others, unless the
first ones hold the last event already. -/
theorem eventsFrom_append (first : List Token) : ∀ names : List Bytes,
    (∀ more, eventsFrom names (first ++ more) = eventsFrom names first) ∨
      ∃ inner, ∀ more,
        eventsFrom names (first ++ more) = eventsFrom names first ++ eventsFrom inner more := by
  induction first with
  | nil => exact fun names => .inr ⟨names, fun _ => rfl⟩
  | cons token first ih =>
    intro names
    simp only [List.cons_append]
    rcases eventsFrom_cons names token with htoken | ⟨event, inner, htoken⟩
    · exact .inl fun more => by rw [htoken, htoken first]
    · simp only [htoken]
      rcases ih inner with h | ⟨later, h⟩
      · exact .inl fun more => congrArg _ (h more)
      · exact .inr ⟨later, fun more => congrArg _ (h more)⟩

end Markup

namespace Pdml

open CaptureSplit.Markup (Event events eventsFrom tokens)

/-- The state behind an event, and the packet that it ends. -/
def advance (s : State) : Event → Except Fault (State × List Dissection.Entry)
  | .malformed => .error .malformedMarkup
  | .opened tag => (openTag tag s).map fun next => (next, [])
  | .empty tag => (emptyTag tag s).map fun next => (next, [])
  | .closed name =>
    .ok (if name = Text.Utf8.ofString "packet" then (State.fresh, [entry s.layers])
      else if name = Text.Utf8.ofString "proto" then ({ s with protocol := none }, [])
      else (s, []))

theorem entriesFrom_cons (s : State) (event : Event) (rest : List Event) :
    entriesFrom s (event :: rest) =
      match advance s event with
      | .error e => .error e
      | .ok (next, ended) => (entriesFrom next rest).map (ended ++ ·) := by
  have hnothing : ∀ r : Except Fault (List Dissection.Entry), r.map ([] ++ ·) = r := by
    intro r
    cases r <;> rfl
  cases event with
  | malformed => rfl
  | opened tag =>
    simp only [entriesFrom, advance]
    cases openTag tag s with
    | error e => rfl
    | ok next => exact (hnothing _).symm
  | empty tag =>
    simp only [entriesFrom, advance]
    cases emptyTag tag s with
    | error e => rfl
    | ok next => exact (hnothing _).symm
  | closed name =>
    simp only [entriesFrom, advance]
    split
    · cases entriesFrom State.fresh rest <;> rfl
    · split <;> exact (hnothing _).symm

/-- Where all events can be read, the first ones yield the first packets, and
are malformed with a malformed one behind them. -/
theorem entriesFrom_of_append {first more : List Event} :
    ∀ {s : State} {entries : List Dissection.Entry},
      entriesFrom s (first ++ more) = .ok entries →
        (∃ ended, entriesFrom s first = .ok ended ∧ ended <+: entries) ∧
          entriesFrom s (first ++ [.malformed]) = .error .malformedMarkup := by
  induction first with
  | nil => exact fun _ => ⟨⟨[], rfl, List.nil_prefix⟩, rfl⟩
  | cons event first ih =>
    intro s entries h
    simp only [List.cons_append, entriesFrom_cons] at h ⊢
    cases hnext : advance s event with
    | error e => simp [hnext] at h
    | ok step =>
      obtain ⟨next, ended⟩ := step
      simp only [hnext] at h ⊢
      cases hrest : entriesFrom next (first ++ more) with
      | error e => simp [hrest, Except.map] at h
      | ok rest =>
        obtain rfl : ended ++ rest = entries := by simpa [hrest, Except.map] using h
        obtain ⟨⟨later, hlater, hended⟩, hbroken⟩ := ih hrest
        rw [hlater, hbroken]
        exact ⟨⟨ended ++ later, rfl, List.prefix_append_right_inj ended |>.mpr hended⟩, rfl⟩

/-- The front of a document that can be read is malformed, or can be read and
yields the first packets. -/
theorem read_of_append {front back : Bytes} {entries : List Dissection.Entry}
    (h : read (front ++ back) = .ok entries) :
    read front = .error .malformedMarkup ∨ ∃ ended, read front = .ok ended ∧ ended <+: entries := by
  obtain ⟨shared, more, hwhole, hfront⟩ := Markup.exists_tokensFrom_append front back 0 .text
  simp only [read, events, tokens, hwhole] at h ⊢
  rcases Markup.eventsFrom_append shared [] with hlast | ⟨inner, hevents⟩
  · have hsame : eventsFrom [] (Markup.tokensFrom 0 .text front) = eventsFrom [] shared := by
      rcases hfront with hfront | hfront
      · rw [hfront]
      · rw [hfront, hlast]
    rw [hlast] at h
    exact .inr ⟨entries, by rw [hsame, h], List.prefix_rfl⟩
  · rw [hevents] at h
    obtain ⟨hread, hbroken⟩ := entriesFrom_of_append h
    rcases hfront with hfront | hfront
    · rw [hfront]
      exact .inr hread
    · rw [hfront, hevents]
      exact .inl hbroken

end Pdml
end CaptureSplit

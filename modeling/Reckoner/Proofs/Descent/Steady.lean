import Reckoner.Cursor
import Reckoner.Proofs.Outcome

/-!
What a step of reading depends on. `Steady` says of a step at a cursor that it takes some tokens and has
looked at these and at the one behind them, at most: from any other cursor before the same tokens it ends
in the same way. A step that complains of a repeated parameter has not even looked at the token behind
it. A reading is steady if its steps are, wherever they lead.
-/
namespace Reckoner

/-- How many tokens at and behind the cursor a reader has looked at when it stops with a fault: the one
    at the cursor, and none where the parameter before it is a repeated one. -/
def Fault.sight : Fault → Nat
  | .error (.parse (.duplicate _ _) _) => 0
  | _ => 1

theorem Fault.sight_of_toFloat {text : Spelling} {fault : Fault} (unread : text.toFloat = .error fault) :
    fault.sight = 1 := by
  unfold Spelling.toFloat at unread
  split at unread <;> cases unread
  rfl

namespace Cursor

/-- A cursor before words, the end of which is the end of the input. -/
structure Ended (cursor : Cursor) : Prop where
  ends : cursor.stop.kind = .finish
  words : ∀ word ∈ cursor.ahead, word.kind ≠ .finish

/-- The cursor some tokens on. -/
def skip (cursor : Cursor) (count : Nat) : Cursor := { cursor with ahead := cursor.ahead.drop count }

/-- Two cursors stand before the same `count` tokens, the end of the input included. -/
def Agrees (count : Nat) (cursor twin : Cursor) : Prop :=
  ∀ place < count, (cursor.ahead ++ [cursor.stop])[place]? = (twin.ahead ++ [twin.stop])[place]?

@[simp] theorem length_skip (cursor : Cursor) (count : Nat) :
    (cursor.skip count).ahead.length = cursor.ahead.length - count := List.length_drop

theorem skip_one (cursor : Cursor) : cursor.skip 1 = cursor.moved := rfl

@[simp] theorem skip_skip (cursor : Cursor) (first second : Nat) :
    (cursor.skip first).skip second = cursor.skip (first + second) := by
  simp [skip, List.drop_drop]

theorem Ended.skip {cursor : Cursor} (ended : cursor.Ended) (count : Nat) :
    (cursor.skip count).Ended :=
  ⟨ended.ends, fun word inside => ended.words word (List.mem_of_mem_drop inside)⟩

/-- Tokens are ahead of a cursor at a word. -/
theorem Ended.length_pos {cursor : Cursor} (ended : cursor.Ended)
    (word : cursor.current.kind ≠ .finish) : 1 ≤ cursor.ahead.length := by
  obtain ⟨ahead, stop⟩ := cursor
  cases ahead with
  | nil => exact absurd ended.ends word
  | cons token rest => simp

theorem Ended.two_le_length {cursor : Cursor} (ended : cursor.Ended)
    (word : cursor.current.kind ≠ .finish) (next : cursor.following.kind ≠ .finish) :
    2 ≤ cursor.ahead.length := by
  have filled := ended.length_pos word
  have more := (ended.skip 1).length_pos next
  rw [length_skip] at more
  omega

theorem current_eq (cursor : Cursor) :
    (cursor.ahead ++ [cursor.stop])[0]? = some cursor.current := by
  obtain ⟨ahead, stop⟩ := cursor
  cases ahead <;> rfl

theorem following_eq {cursor : Cursor} (filled : 1 ≤ cursor.ahead.length) :
    (cursor.ahead ++ [cursor.stop])[1]? = some cursor.following := by
  obtain ⟨ahead, stop⟩ := cursor
  match ahead, filled with
  | [_], _ => rfl
  | _ :: _ :: _, _ => rfl

theorem Agrees.refl (count : Nat) (cursor : Cursor) : cursor.Agrees count cursor := fun _ _ => rfl

theorem Agrees.fewer {count less : Nat} {cursor twin : Cursor} (agrees : cursor.Agrees count twin)
    (fewer : less ≤ count) : cursor.Agrees less twin :=
  fun place before => agrees place (by omega)

theorem Agrees.current {count : Nat} {cursor twin : Cursor} (agrees : cursor.Agrees count twin)
    (some : 1 ≤ count) : twin.current = cursor.current := by
  have same := agrees 0 some
  rw [current_eq, current_eq] at same
  exact (Option.some.inj same).symm

/-- What is a word ahead of one cursor is one ahead of the other. -/
theorem Agrees.length_le {count taken : Nat} {cursor twin : Cursor} (agrees : cursor.Agrees count twin)
    (ended : cursor.Ended) (endedTwin : twin.Ended) (fewer : taken ≤ count)
    (within : taken ≤ cursor.ahead.length) : taken ≤ twin.ahead.length := by
  refine Nat.le_of_not_lt fun short => ?_
  have same := agrees twin.ahead.length (by omega)
  have inside : twin.ahead.length < cursor.ahead.length := by omega
  rw [List.getElem?_append_left inside, List.getElem?_concat_length,
    List.getElem?_eq_getElem inside] at same
  have word := ended.words _ (List.getElem_mem inside)
  rw [Option.some.inj same] at word
  exact word endedTwin.ends

theorem Agrees.following {count : Nat} {cursor twin : Cursor} (agrees : cursor.Agrees count twin)
    (more : 2 ≤ count) (filled : 1 ≤ cursor.ahead.length) (filledTwin : 1 ≤ twin.ahead.length) :
    twin.following = cursor.following := by
  have same := agrees 1 more
  rw [following_eq filled, following_eq filledTwin] at same
  exact (Option.some.inj same).symm

theorem getElem?_skip {cursor : Cursor} {count : Nat} (within : count ≤ cursor.ahead.length)
    (place : Nat) :
    ((cursor.skip count).ahead ++ [(cursor.skip count).stop])[place]? =
      (cursor.ahead ++ [cursor.stop])[count + place]? := by
  rw [← List.getElem?_drop, List.drop_append_of_le_length within]
  rfl

theorem Agrees.skip {taken more : Nat} {cursor twin : Cursor}
    (agrees : cursor.Agrees (taken + more) twin) (within : taken ≤ cursor.ahead.length)
    (withinTwin : taken ≤ twin.ahead.length) : (cursor.skip taken).Agrees more (twin.skip taken) := by
  intro place before
  rw [getElem?_skip within, getElem?_skip withinTwin]
  exact agrees (taken + place) (by omega)

end Cursor

namespace Reading
open Cursor

/-- A step ends from a cursor after taking some tokens, and from every other cursor before the same
    `seen` tokens it ends alike. The step may depend on rounds, of which there are to be enough. -/
structure Repeats {α : Type} (slack : Nat) (step : List Token → Reading α) (cursor after : Cursor)
    (outcome : Cursor → EStateM.Result Fault Cursor α) (taken seen : Nat) : Prop where
  within : taken ≤ cursor.ahead.length
  reached : after = cursor.skip taken
  again (twin : Cursor) (rounds : List Token) :
    twin.Ended → twin.ahead.length + slack < rounds.length → cursor.Agrees seen twin →
      step rounds twin = outcome (twin.skip taken)

/-- What a step does at a cursor depends on the tokens that it takes and the one behind them; with a
    fault, on those that it has looked at. At least one token is looked at. -/
def Steady {α : Type} (slack : Nat) (step : List Token → Reading α) (cursor : Cursor) : Prop :=
  ∀ rounds : List Token, cursor.ahead.length + slack < rounds.length →
    Ends (step rounds) cursor
      (fun value after => ∃ taken, Repeats slack step cursor after (.ok value) taken (taken + 1))
      (fun fault after => ∃ taken, 1 ≤ taken + fault.sight ∧
        Repeats slack step cursor after (.error fault) taken (taken + fault.sight))

section
variable {α β : Type} {slack : Nat} {cursor : Cursor} {step : List Token → Reading α}

/-- To show that a step is steady, it may be run. -/
theorem Steady.of_rounds (steady : ∀ rounds : List Token, cursor.ahead.length + slack < rounds.length →
    Steady slack step cursor) : Steady slack step cursor :=
  fun rounds enough => steady rounds enough rounds enough

theorem Repeats.more {after : Cursor} {outcome : Cursor → EStateM.Result Fault Cursor α}
    {taken seen greater : Nat} (repeats : Repeats slack step cursor after outcome taken seen)
    (le : slack ≤ greater) : Repeats greater step cursor after outcome taken seen :=
  ⟨repeats.within, repeats.reached, fun twin rounds ended enough agrees =>
    repeats.again twin rounds ended (by omega) agrees⟩

theorem Steady.more {greater : Nat} (steady : Steady slack step cursor) (le : slack ≤ greater) :
    Steady greater step cursor := by
  intro rounds enough
  refine Ends.imp (steady rounds (by omega)) ?_ ?_
  · rintro value after ⟨taken, repeats⟩
    exact ⟨taken, repeats.more le⟩
  · rintro fault after ⟨taken, some, repeats⟩
    exact ⟨taken, some, repeats.more le⟩

/-- A step that leaves one round to a steady one is steady behind one more token. -/
theorem Steady.tail (steady : Steady slack step cursor) :
    Steady (slack + 1) (fun rounds => step rounds.tail) cursor := by
  intro rounds enough
  have less : cursor.ahead.length + slack < rounds.tail.length := by
    rw [List.length_tail]
    omega
  have again {twin : Cursor} {others : List Token} (enough : twin.ahead.length + (slack + 1) < others.length) :
      twin.ahead.length + slack < others.tail.length := by
    rw [List.length_tail]
    omega
  refine Ends.imp (steady _ less) ?_ ?_
  · rintro value after ⟨taken, repeats⟩
    exact ⟨taken, repeats.within, repeats.reached, fun twin others ended enough agrees =>
      repeats.again twin _ ended (again enough) agrees⟩
  · rintro fault after ⟨taken, some, repeats⟩
    exact ⟨taken, some, repeats.within, repeats.reached, fun twin others ended enough agrees =>
      repeats.again twin _ ended (again enough) agrees⟩

/-- A step that does behind `front` tokens what a steady one does there is steady. -/
theorem Steady.front {next : List Token → Reading α} {front : Nat} (ended : cursor.Ended)
    (within : front ≤ cursor.ahead.length)
    (leads : ∀ (twin : Cursor) (rounds : List Token), twin.Ended → front ≤ twin.ahead.length →
      twin.ahead.length + slack < rounds.length → cursor.Agrees (front + 1) twin →
      step rounds twin = next rounds (twin.skip front))
    (steady : Steady (slack + front) next (cursor.skip front)) : Steady slack step cursor := by
  intro rounds enough
  have room {twin : Cursor} {others : List Token} (within : front ≤ twin.ahead.length)
      (enough : twin.ahead.length + slack < others.length) :
      (twin.skip front).ahead.length + (slack + front) < others.length := by
    rw [length_skip]
    omega
  -- What is known of `next` behind the tokens holds of `step` before them, from every twin.
  have shift {after : Cursor} {outcome : Cursor → EStateM.Result Fault Cursor α} {taken seen : Nat}
      (some : 1 ≤ seen)
      (repeats : Repeats (slack + front) next (cursor.skip front) after outcome taken seen) :
      Repeats slack step cursor after outcome (front + taken) (front + seen) := by
    have bound := repeats.within
    rw [length_skip] at bound
    refine ⟨by omega, by rw [repeats.reached, skip_skip], fun twin others endedTwin enough agrees => ?_⟩
    have withinTwin := agrees.length_le ended endedTwin (by omega) within
    rw [leads twin others endedTwin withinTwin enough (agrees.fewer (by omega)),
      repeats.again _ others (endedTwin.skip front) (room withinTwin enough)
        (agrees.skip within withinTwin), skip_skip]
  have same := leads cursor rounds ended within enough (.refl _ _)
  rw [Ends, same]
  refine Ends.imp (steady rounds (room within enough)) ?_ ?_
  · rintro value after ⟨taken, repeats⟩
    exact ⟨front + taken, by simpa [Nat.add_assoc] using shift (by omega) repeats⟩
  · rintro fault after ⟨taken, some, repeats⟩
    exact ⟨front + taken, by omega, by simpa [Nat.add_assoc] using shift some repeats⟩

/-- A step that only counts its rounds is steady if it is so with any token for the first one. -/
theorem Steady.round (token : Token)
    (counts : ∀ other rounds, step (other :: rounds) = step (token :: rounds))
    (steady : Steady slack (fun rounds => step (token :: rounds.tail)) cursor) :
    Steady slack step cursor := by
  have same {twin : Cursor} {rounds : List Token} (enough : twin.ahead.length + slack < rounds.length) :
      step rounds = step (token :: rounds.tail) := by
    cases rounds with
    | nil => simp at enough
    | cons other rounds => exact counts other rounds
  intro rounds enough
  rw [same enough]
  refine Ends.imp (steady rounds enough) ?_ ?_
  · rintro value after ⟨taken, within, reached, again⟩
    exact ⟨taken, within, reached, fun twin others ended enough agrees =>
      same enough ▸ again twin others ended enough agrees⟩
  · rintro fault after ⟨taken, some, within, reached, again⟩
    exact ⟨taken, some, within, reached, fun twin others ended enough agrees =>
      same enough ▸ again twin others ended enough agrees⟩

theorem steady_pure (value : α) : Steady slack (fun _ => pure value) cursor :=
  fun _ _ => ⟨0, Nat.zero_le _, rfl, fun _ _ _ _ _ => rfl⟩

/-- A step that stops behind `taken` tokens, whatever follows those that it looks at. -/
theorem steady_stop (fault : Fault) {taken : Nat} (ended : cursor.Ended)
    (within : taken ≤ cursor.ahead.length) (some : 1 ≤ taken + fault.sight)
    (stops : ∀ (twin : Cursor) (rounds : List Token), twin.Ended →
      twin.ahead.length + slack < rounds.length → cursor.Agrees (taken + fault.sight) twin →
      step rounds twin = .error fault (twin.skip taken)) : Steady slack step cursor := by
  intro rounds enough
  rw [Ends, stops cursor rounds ended enough (.refl _ _)]
  exact ⟨taken, some, within, rfl, stops⟩

/-- What is read in two steps is steady if the second is, wherever the first leads. -/
theorem Steady.bind {next : α → List Token → Reading β} (ended : cursor.Ended)
    (first : Steady slack step cursor)
    (more : ∀ value taken, taken ≤ cursor.ahead.length →
      Steady (slack + taken) (next value) (cursor.skip taken)) :
    Steady slack (fun rounds => step rounds >>= fun value => next value rounds) cursor := by
  refine .of_rounds fun rounds enough => ?_
  cases outcome : step rounds cursor with
  | ok value after =>
    obtain ⟨front, within, _, again⟩ := (first rounds enough).of_ok outcome
    refine Steady.front ended within ?_ (more value front within)
    intro twin others endedTwin _ enough agrees
    exact bind_of_ok (again twin others endedTwin enough agrees)
  | error fault after =>
    obtain ⟨taken, some, within, _, again⟩ := (first rounds enough).of_error outcome
    refine steady_stop fault ended within some ?_
    intro twin others endedTwin enough agrees
    exact bind_of_error (again twin others endedTwin enough agrees)

theorem steady_throw {fault : Fault} (sight : fault.sight = 1) (ended : cursor.Ended) :
    Steady slack (fun _ => (throw fault : Reading α)) cursor :=
  steady_stop fault ended (Nat.zero_le _) (by omega) fun _ _ _ _ _ => rfl

theorem steady_complain {complaint : Complaint} {line : Option Int}
    (sight : (Fault.error (.parse complaint line)).sight = 1) (ended : cursor.Ended) :
    Steady slack (fun _ => (complain complaint line : Reading α)) cursor := steady_throw sight ended

theorem steady_peek_bind {next : List Token → Token → Reading α} (ended : cursor.Ended)
    (steady : Steady slack (fun rounds => next rounds cursor.current) cursor) :
    Steady slack (fun rounds => peek >>= next rounds) cursor := by
  refine Steady.front ended (Nat.zero_le _) ?_ steady
  intro twin rounds _ _ _ agrees
  exact congrArg (next rounds · twin) (agrees.current (by omega))

theorem steady_sees_bind {kind : Token.Kind} {next : List Token → Bool → Reading α}
    (ended : cursor.Ended)
    (steady : Steady slack (fun rounds => next rounds (cursor.current.kind = kind)) cursor) :
    Steady slack (fun rounds => sees kind >>= next rounds) cursor := by
  refine Steady.front ended (Nat.zero_le _) ?_ steady
  intro twin rounds _ _ _ agrees
  exact congrArg (fun token : Token => next rounds (token.kind = kind) twin) (agrees.current (by omega))

/-- A loop over the remaining tokens has enough rounds. -/
theorem steady_remaining_bind {loop : List Token → Reading α} (steady : Steady 0 loop cursor) :
    Steady slack (fun _ => remaining >>= loop) cursor := by
  have enough (twin : Cursor) : twin.ahead.length + 0 < (twin.stop :: twin.ahead).length := by simp
  intro _ _
  refine Ends.imp (steady _ (enough cursor)) ?_ ?_
  · rintro value after ⟨taken, within, reached, again⟩
    exact ⟨taken, within, reached, fun twin _ ended _ agrees => again twin _ ended (enough twin) agrees⟩
  · rintro fault after ⟨taken, some, within, reached, again⟩
    exact ⟨taken, some, within, reached, fun twin _ ended _ agrees =>
      again twin _ ended (enough twin) agrees⟩

theorem steady_advance_bind {next : List Token → Token → Reading α} (ended : cursor.Ended)
    (word : cursor.current.kind ≠ .finish)
    (steady : Steady (slack + 1) (fun rounds => next rounds cursor.current) cursor.moved) :
    Steady slack (fun rounds => advance >>= next rounds) cursor := by
  refine Steady.front ended (ended.length_pos word) ?_ steady
  intro twin rounds _ _ _ agrees
  exact congrArg (next rounds · twin.moved) (agrees.current (by omega))

theorem peek_eq (cursor : Cursor) : peek cursor = .ok cursor.current cursor := rfl

theorem peekNext_eq (cursor : Cursor) : peekNext cursor = .ok cursor.following cursor := rfl

theorem consume_of_kind {kind : Token.Kind} (complaint : Found → Complaint) {cursor : Cursor}
    (same : cursor.current.kind = kind) : consume kind complaint cursor = .ok cursor.current cursor.moved := by
  rw [consume, bind_of_ok (peek_eq cursor), if_pos same]
  rfl

theorem steady_consume_bind {kind : Token.Kind} {complaint : Found → Complaint}
    {next : List Token → Token → Reading α} (ended : cursor.Ended) (word : kind ≠ .finish)
    (sight : ∀ found line, (Fault.error (.parse (complaint found) line)).sight = 1)
    (steady : cursor.current.kind = kind →
      Steady (slack + 1) (fun rounds => next rounds cursor.current) cursor.moved) :
    Steady slack (fun rounds => consume kind complaint >>= next rounds) cursor := by
  by_cases same : cursor.current.kind = kind
  · refine Steady.front ended (ended.length_pos (same ▸ word)) ?_ (steady same)
    intro twin rounds _ _ _ agrees
    have token := agrees.current (by omega)
    rw [bind_of_ok (consume_of_kind complaint (token ▸ same)), token]
    rfl
  · have looked := sight cursor.current.found cursor.current.line
    refine steady_stop (.error (.parse (complaint cursor.current.found) cursor.current.line)) ended
      (Nat.zero_le _) (by omega) ?_
    intro twin rounds _ _ agrees
    have token := agrees.current (by omega)
    refine bind_of_error ?_
    rw [consume, bind_of_ok (peek_eq twin), if_neg (token ▸ same), token]
    rfl

end

end Reading

end Reckoner

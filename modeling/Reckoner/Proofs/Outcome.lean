import Reckoner.Fault

/-!
How computations end. `Ends` says of a computation with state what it ends with, a result or a
fault, and in which state; it goes through a computation step by step. `Approximates` compares an
outcome that may have given up at its depth with the one that there is without any depth.
-/
namespace Reckoner

/-- From `state` a computation ends with a result and a state in `good`, or with a fault and a state
    in `bad`. -/
def Ends {ε σ α : Type} (computation : EStateM ε σ α) (state : σ) (good : α → σ → Prop)
    (bad : ε → σ → Prop) : Prop :=
  match computation state with
  | .ok value after => good value after
  | .error fault after => bad fault after

section
variable {ε σ α β : Type} {state : σ} {good : α → σ → Prop} {bad : ε → σ → Prop}

@[simp] theorem ends_pure (value : α) :
    Ends (pure value : EStateM ε σ α) state good bad ↔ good value state := Iff.rfl

@[simp] theorem ends_throw (fault : ε) :
    Ends (throw fault : EStateM ε σ α) state good bad ↔ bad fault state := Iff.rfl

@[simp] theorem ends_get {good : σ → σ → Prop} :
    Ends (get : EStateM ε σ σ) state good bad ↔ good state state := Iff.rfl

@[simp] theorem ends_modify {good : PUnit → σ → Prop} (change : σ → σ) :
    Ends (modify change : EStateM ε σ PUnit) state good bad ↔ good ⟨⟩ (change state) := Iff.rfl

@[simp] theorem ends_bind {good : β → σ → Prop} (first : EStateM ε σ α) (next : α → EStateM ε σ β) :
    Ends (first >>= next) state good bad ↔
      Ends first state (fun value after => Ends (next value) after good bad) bad := by
  change (match EStateM.bind first next state with
    | .ok value after => good value after
    | .error fault after => bad fault after) ↔ _
  unfold EStateM.bind Ends
  cases first state <;> rfl

@[simp] theorem ends_map {good : β → σ → Prop} (change : α → β) (first : EStateM ε σ α) :
    Ends (change <$> first) state good bad ↔
      Ends first state (fun value after => good (change value) after) bad := by
  change (match EStateM.map change first state with
    | .ok value after => good value after
    | .error fault after => bad fault after) ↔ _
  unfold EStateM.map Ends
  cases first state <;> rfl

/-- A fault that is caught leaves the state from which its handler goes on. -/
@[simp] theorem ends_tryCatch (work : EStateM ε σ α) (handle : ε → EStateM ε σ α) :
    Ends (tryCatch work handle) state good bad ↔
      Ends work state good (fun fault after => Ends (handle fault) after good bad) := by
  have caught : (tryCatch work handle : EStateM ε σ α) state = EStateM.tryCatch work handle state := rfl
  rw [Ends, caught]
  unfold EStateM.tryCatch Ends
  cases work state <;> rfl

theorem Ends.imp {computation : EStateM ε σ α} {good' : α → σ → Prop} {bad' : ε → σ → Prop}
    (ends : Ends computation state good bad)
    (better : ∀ value after, good value after → good' value after)
    (worse : ∀ fault after, bad fault after → bad' fault after) :
    Ends computation state good' bad' := by
  unfold Ends at ends ⊢
  cases outcome : computation state with
  | ok value after => rw [outcome] at ends; exact better _ _ ends
  | error fault after => rw [outcome] at ends; exact worse _ _ ends

/-- What is known of an end in two ways is known together. -/
theorem Ends.and {computation : EStateM ε σ α} {good' : α → σ → Prop} {bad' : ε → σ → Prop}
    (ends : Ends computation state good bad) (also : Ends computation state good' bad') :
    Ends computation state (fun value after => good value after ∧ good' value after)
      (fun fault after => bad fault after ∧ bad' fault after) := by
  unfold Ends at ends also ⊢
  cases outcome : computation state with
  | ok value after =>
    rw [outcome] at ends also
    exact ⟨ends, also⟩
  | error fault after =>
    rw [outcome] at ends also
    exact ⟨ends, also⟩

/-- A computation goes on from where its first part ends. -/
theorem Ends.bind {first : EStateM ε σ α} {next : α → EStateM ε σ β} {good' : β → σ → Prop}
    {bad' : ε → σ → Prop} (ends : Ends first state good bad)
    (goesOn : ∀ value after, good value after → Ends (next value) after good' bad')
    (worse : ∀ fault after, bad fault after → bad' fault after) :
    Ends (first >>= next) state good' bad' :=
  (ends_bind first next).2 (ends.imp goesOn worse)

/-- The end of a computation is that of its run. -/
theorem Ends.reached {computation : EStateM ε σ α} (ends : Ends computation state good bad) :
    Ends computation state (fun value after => computation state = .ok value after ∧ good value after)
      (fun fault after => computation state = .error fault after ∧ bad fault after) := by
  unfold Ends at ends ⊢
  cases outcome : computation state with
  | ok value after => rw [outcome] at ends; exact ⟨rfl, ends⟩
  | error fault after => rw [outcome] at ends; exact ⟨rfl, ends⟩

theorem Ends.of_ok {computation : EStateM ε σ α} (ends : Ends computation state good bad) {value : α}
    {after : σ} (result : computation state = .ok value after) : good value after := by
  rw [Ends, result] at ends
  exact ends

theorem Ends.of_error {computation : EStateM ε σ α} (ends : Ends computation state good bad)
    {fault : ε} {after : σ} (result : computation state = .error fault after) : bad fault after := by
  rw [Ends, result] at ends
  exact ends

theorem bind_of_ok {first : EStateM ε σ α} {next : α → EStateM ε σ β} {after : σ} {value : α}
    (ended : first state = .ok value after) : (first >>= next) state = next value after := by
  change EStateM.bind first next state = _
  rw [EStateM.bind, ended]

theorem bind_of_error {first : EStateM ε σ α} {next : α → EStateM ε σ β} {after : σ} {fault : ε}
    (ended : first state = .error fault after) : (first >>= next) state = .error fault after := by
  change EStateM.bind first next state = _
  rw [EStateM.bind, ended]

theorem tryCatch_of_ok {work : EStateM ε σ α} {handle : ε → EStateM ε σ α} {after : σ} {value : α}
    (ended : work state = .ok value after) :
    (tryCatch work handle : EStateM ε σ α) state = .ok value after := by
  change EStateM.tryCatch work handle state = _
  unfold EStateM.tryCatch
  rw [ended]

theorem tryCatch_of_error {work : EStateM ε σ α} {handle : ε → EStateM ε σ α} {after : σ} {fault : ε}
    (ended : work state = .error fault after) :
    (tryCatch work handle : EStateM ε σ α) state = handle fault after := by
  change EStateM.tryCatch work handle state = _
  unfold EStateM.tryCatch
  rw [ended]
  rfl

theorem bind_eq_ok {first : EStateM ε σ α} {next : α → EStateM ε σ β} {after : σ} {result : β}
    (ended : (first >>= next) state = .ok result after) :
    ∃ value middle, first state = .ok value middle ∧ next value middle = .ok result after := by
  cases one : first state with
  | ok value middle => exact ⟨value, middle, rfl, (bind_of_ok one).symm.trans ended⟩
  | error fault middle => cases (bind_of_error one).symm.trans ended

end

theorem mapM_cons_eq_ok {ε σ α β : Type} {act : α → EStateM ε σ β} {item : α} {rest : List α}
    {state middle after : σ} {value : β} {values : List β} (first : act item state = .ok value middle)
    (others : rest.mapM act middle = .ok values after) :
    (item :: rest).mapM act state = .ok (value :: values) after := by
  rw [List.mapM_cons]
  change EStateM.bind (act item) _ state = _
  rw [EStateM.bind, first]
  change EStateM.bind (rest.mapM act) _ middle = _
  rw [EStateM.bind, others]
  rfl

theorem bind_eq_ok_iff {ε α β : Type} {first : Except ε α} {next : α → Except ε β} {result : β} :
    first >>= next = .ok result ↔ ∃ value, first = .ok value ∧ next value = .ok result := by
  cases first <;> simp [bind, Except.bind]

theorem bind_eq_error_iff {ε α β : Type} {first : Except ε α} {next : α → Except ε β} {fault : ε} :
    first >>= next = .error fault ↔
      first = .error fault ∨ ∃ value, first = .ok value ∧ next value = .error fault := by
  cases first <;> simp [bind, Except.bind]

theorem map_eq_error_iff {ε α β : Type} {change : α → β} {first : Except ε α} {fault : ε} :
    change <$> first = .error fault ↔ first = .error fault := by
  cases first <;> simp [Functor.map, Except.map]

theorem map_eq_ok_iff {ε α β : Type} {change : α → β} {first : Except ε α} {result : β} :
    change <$> first = .ok result ↔ ∃ value, first = .ok value ∧ change value = result := by
  cases first <;> simp [Functor.map, Except.map]

/-- A fault in a row is that of one of its items. -/
theorem exists_of_mapM_eq_error {ε α β : Type} {act : α → Except ε β} {list : List α} {fault : ε}
    (fails : list.mapM act = .error fault) : ∃ item ∈ list, act item = .error fault := by
  induction list with
  | nil => cases fails
  | cons item rest ih =>
    rw [List.mapM_cons] at fails
    rcases bind_eq_error_iff.1 fails with first | ⟨value, _, later⟩
    · exact ⟨item, by simp, first⟩
    · rcases bind_eq_error_iff.1 later with others | ⟨_, _, done⟩
      · obtain ⟨other, inside, failed⟩ := ih others
        exact ⟨other, by simp [inside], failed⟩
      · cases done

/-- A fold that fails does so at one of its items. -/
theorem exists_of_foldlM_eq_error {ε α β : Type} {act : β → α → Except ε β} {list : List α} {start : β}
    {fault : ε} (fails : list.foldlM act start = .error fault) :
    ∃ before, ∃ item ∈ list, act before item = .error fault := by
  induction list generalizing start with
  | nil => cases fails
  | cons item list ih =>
    rw [List.foldlM_cons] at fails
    rcases bind_eq_error_iff.1 fails with here | ⟨next, _, later⟩
    · exact ⟨start, item, by simp, here⟩
    · obtain ⟨before, other, inside, there⟩ := ih later
      exact ⟨before, other, List.mem_cons_of_mem _ inside, there⟩

/-- A change of faults that leaves those of a first step goes over to the second one. -/
theorem mapError_bind {ε α β : Type} {change : ε → ε} {first : Except ε α}
    (fixed : first.mapError change = first) (next : α → Except ε β) :
    (first >>= next).mapError change = first >>= fun value => (next value).mapError change := by
  cases first with
  | ok value => rfl
  | error fault =>
    have same : change fault = fault := Except.error.inj fixed
    exact congrArg Except.error same

/-- An outcome is the whole one, or the depth was exceeded on the way to it. -/
def Approximates {α : Type} (outcome whole : Except Fault α) : Prop :=
  outcome = whole ∨ outcome = .error .depth

namespace Approximates
variable {α β : Type}

theorem refl (outcome : Except Fault α) : Approximates outcome outcome := .inl rfl

theorem bind {outcome whole : Except Fault α} {next wholeNext : α → Except Fault β}
    (first : Approximates outcome whole)
    (more : ∀ value, whole = .ok value → Approximates (next value) (wholeNext value)) :
    Approximates (outcome >>= next) (whole >>= wholeNext) := by
  rcases first with rfl | deep
  · cases outcome with
    | ok value => exact more value rfl
    | error fault => exact .inl rfl
  · rw [deep]
    exact .inr rfl

theorem bind_ok {outcome : Except Fault α} {value : α} {next : α → Except Fault β}
    {whole : Except Fault β} (first : Approximates outcome (.ok value))
    (more : Approximates (next value) whole) : Approximates (outcome >>= next) whole := by
  rcases first with rfl | deep
  · exact more
  · rw [deep]
    exact .inr rfl

theorem map (change : α → β) {outcome whole : Except Fault α} (same : Approximates outcome whole) :
    Approximates (change <$> outcome) (change <$> whole) := by
  rcases same with rfl | deep
  · exact .inl rfl
  · rw [deep]
    exact .inr rfl

/-- Outcomes that approximate one by one do so in a row. -/
theorem mapM {act whole : α → Except Fault β} {list : List α}
    (each : ∀ item ∈ list, Approximates (act item) (whole item)) :
    Approximates (list.mapM act) (list.mapM whole) := by
  induction list with
  | nil => exact refl _
  | cons item rest ih =>
    simp only [List.mapM_cons]
    refine (each item (by simp)).bind fun value _ => ?_
    refine (ih fun other inside => each other (by simp [inside])).bind fun values _ => ?_
    exact refl _

end Approximates

end Reckoner

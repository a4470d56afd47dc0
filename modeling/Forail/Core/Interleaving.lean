import Forail.Core.Runs
import Mathlib.Logic.Function.Basic

/-!
# Programs whose operations interleave

A program performs one operation on a shared state after the other, and what it
does next depends on the answers.  Between two operations of a program the
other ones may have changed the state, and all that is known of the change is
that the state is a later one.  A program is checked on its own: each of its
operations has to meet what is required of it in every later state, and then
all of them keep the invariant, in whatever order they are taken.
-/

namespace Forail.Interleaving

open Forail.Runs

/-- A program that performs operations and uses their answers. -/
inductive Prog (Op : Type) (Answer : Op → Type) (α : Type) where
  | done (result : α)
  | perform (op : Op) (next : Answer op → Prog Op Answer α)

variable {State Op Process Task Change : Type} {Answer : Op → Type} {α β ε : Type}

namespace Prog

def bind : Prog Op Answer α → (α → Prog Op Answer β) → Prog Op Answer β
  | done result, rest => rest result
  | perform op next, rest => perform op fun answer => (next answer).bind rest

instance : Monad (Prog Op Answer) where
  pure := done
  bind := bind

def ask (op : Op) : Prog Op Answer (Answer op) := perform op done

/-- What is assumed and required of the operations of all programs. -/
structure Contract (State Op : Type) where
  invariant : State → Prop
  later : State → State → Prop
  allowed : State → Op → Prop
  required : State → Op → Prop

/-- What is ensured of a result in a state and in every later one. -/
def Contract.Stays (contract : Contract State Op) (ensures : State → α → Prop) (state : State)
    (result : α) : Prop :=
  ∀ state', contract.later state state' → contract.invariant state' → ensures state' result

/-- Each operation of a program meets what is required of it, in every state that is later
than the one after the operation before, and what is ensured of the result stays so. -/
def Meets (contract : Contract State Op) (execute : State → (op : Op) → Answer op × State)
    (ensures : State → α → Prop) : Prog Op Answer α → State → Prop
  | done result, state => contract.Stays ensures state result
  | perform op next, state => ∀ state', contract.later state state' →
      contract.invariant state' → contract.allowed state' op → contract.required state' op ∧
        (next (execute state' op).1).Meets contract execute ensures (execute state' op).2

end Prog

/-- Later states are ordered, and an operation as required keeps the invariant and leads to a
later state. -/
structure Prog.Contract.Sound (contract : Contract State Op)
    (execute : State → (op : Op) → Answer op × State) : Prop where
  refl : ∀ state, contract.later state state
  trans : ∀ {state state' state''}, contract.later state state' → contract.later state' state'' →
    contract.later state state''
  execute : ∀ {state op}, contract.invariant state → contract.allowed state op →
    contract.required state op →
      contract.invariant (execute state op).2 ∧ contract.later state (execute state op).2

namespace Prog

variable {contract : Contract State Op} {execute : State → (op : Op) → Answer op × State}
  {ensures : State → α → Prop} {prog : Prog Op Answer α} {state state' : State}

theorem Contract.Stays.later {result : α} (hsound : contract.Sound execute)
    (hstays : contract.Stays ensures state result) (hlater : contract.later state state') :
    contract.Stays ensures state' result :=
  fun after hafter => hstays after (hsound.trans hlater hafter)

theorem Meets.later (hsound : contract.Sound execute)
    (hmeets : prog.Meets contract execute ensures state)
    (hlater : contract.later state state') : prog.Meets contract execute ensures state' := by
  cases prog with
  | done result => exact Contract.Stays.later hsound hmeets hlater
  | perform op next => exact fun after hafter => hmeets after (hsound.trans hlater hafter)

theorem Meets.of_later (hsound : contract.Sound execute)
    (hmeets : ∀ state', contract.later state state' → contract.invariant state' →
      prog.Meets contract execute ensures state') :
    prog.Meets contract execute ensures state := by
  cases prog with
  | done result =>
    exact fun after hafter hinvariant => hmeets after hafter hinvariant after (hsound.refl after)
      hinvariant
  | perform op next =>
    exact fun after hafter hinvariant => hmeets after hafter hinvariant after (hsound.refl after)
      hinvariant

theorem Meets.mono {ensures' : State → α → Prop}
    (hmeets : prog.Meets contract execute ensures state)
    (hensures : ∀ state result, ensures state result → ensures' state result) :
    prog.Meets contract execute ensures' state := by
  induction prog generalizing state with
  | done result => exact fun after hafter hinvariant => hensures _ _ (hmeets after hafter hinvariant)
  | perform op next ih =>
    intro after hafter hinvariant hallowed
    obtain ⟨hrequired, hnext⟩ := hmeets after hafter hinvariant hallowed
    exact ⟨hrequired, ih _ hnext⟩

theorem Meets.bind {rest : α → Prog Op Answer β} {ensures' : State → β → Prop}
    (hsound : contract.Sound execute) (hmeets : prog.Meets contract execute ensures state)
    (hrest : ∀ state' result, contract.later state state' → contract.invariant state' →
      contract.Stays ensures state' result → (rest result).Meets contract execute ensures' state') :
    (prog >>= rest).Meets contract execute ensures' state := by
  change (prog.bind rest).Meets contract execute ensures' state
  induction prog generalizing state with
  | done result =>
    refine Meets.of_later hsound fun after hafter hinvariant => ?_
    exact hrest after result hafter hinvariant (Contract.Stays.later hsound hmeets hafter)
  | perform op next ih =>
    intro after hafter hinvariant hallowed
    obtain ⟨hrequired, hnext⟩ := hmeets after hafter hinvariant hallowed
    have hexecute := (hsound.execute hinvariant hallowed hrequired).2
    refine ⟨hrequired, ih _ hnext fun last result hlast => ?_⟩
    exact hrest last result (hsound.trans hafter (hsound.trans hexecute hlast))

end Prog

/-! ## Programs that can fail -/

/-- A program that ends with a result or with an exception. -/
abbrev Fallible (ε Op : Type) (Answer : Op → Type) (α : Type) := ExceptT ε (Prog Op Answer) α

namespace Fallible

def perform (op : Op) : Fallible ε Op Answer (Answer op) := ExceptT.lift (Prog.ask op)

def raises (result : Except ε α) : Fallible ε Op Answer α := ExceptT.mk (pure result)

def attempt (prog : Fallible ε Op Answer α) : Fallible ε Op Answer (Except ε α) :=
  ExceptT.mk (prog.run >>= fun outcome => pure (.ok outcome))

/-- A result that is no exception, and what is ensured of it. -/
def Result (ensures : State → α → Prop) (state : State) (outcome : Except ε α) : Prop :=
  ∃ result, outcome = .ok result ∧ ensures state result

/-- A program that meets the contract and does not fail. -/
def Yields (contract : Prog.Contract State Op)
    (execute : State → (op : Op) → Answer op × State) (ensures : State → α → Prop)
    (prog : Fallible ε Op Answer α) (state : State) : Prop :=
  prog.run.Meets contract execute (Result ensures) state

variable {contract : Prog.Contract State Op} {execute : State → (op : Op) → Answer op × State}
  {ensures ensures' : State → α → Prop} {after : State → Except ε β → Prop}
  {prog : Fallible ε Op Answer α} {rest : α → Fallible ε Op Answer β} {state : State}

theorem stays_result {outcome : Except ε α} (hsound : contract.Sound execute)
    (hinvariant : contract.invariant state)
    (hstays : contract.Stays (Result ensures) state outcome) :
    ∃ result, outcome = .ok result ∧ contract.Stays ensures state result := by
  obtain ⟨result, rfl, -⟩ := hstays state (hsound.refl state) hinvariant
  refine ⟨result, rfl, fun state' hlater hkept => ?_⟩
  obtain ⟨_, hsame, hresult⟩ := hstays state' hlater hkept
  rwa [Except.ok.inj hsame]

theorem Yields.mono (hyields : prog.Yields contract execute ensures state)
    (hensures : ∀ state result, ensures state result → ensures' state result) :
    prog.Yields contract execute ensures' state := by
  refine Prog.Meets.mono hyields fun state outcome => ?_
  rintro ⟨result, rfl, hresult⟩
  exact ⟨result, rfl, hensures state result hresult⟩

theorem Yields.bind (hsound : contract.Sound execute)
    (hyields : prog.Yields contract execute ensures state)
    (hrest : ∀ state' result, contract.later state state' → contract.invariant state' →
      contract.Stays ensures state' result →
        (rest result).run.Meets contract execute after state') :
    (prog >>= rest).run.Meets contract execute after state := by
  change (prog.run >>= ExceptT.bindCont rest).Meets contract execute after state
  refine Prog.Meets.bind hsound hyields fun state' outcome hlater hinvariant hstays => ?_
  obtain ⟨result, rfl, hresult⟩ := stays_result hsound hinvariant hstays
  exact hrest state' result hlater hinvariant hresult

theorem Yields.attempt (hsound : contract.Sound execute)
    (hyields : prog.Yields contract execute ensures state) :
    prog.attempt.Yields contract execute (Result ensures) state := by
  refine Prog.Meets.bind hsound hyields fun state' outcome _ _ hstays => ?_
  exact fun state'' hlater hinvariant => ⟨outcome, rfl, hstays state'' hlater hinvariant⟩

theorem Yields.tryCatch (hsound : contract.Sound execute)
    (hyields : prog.Yields contract execute ensures state) (handler : ε → Fallible ε Op Answer α) :
    Fallible.Yields contract execute ensures (tryCatch prog handler) state := by
  refine Prog.Meets.bind hsound hyields fun state' outcome _ hinvariant hstays => ?_
  obtain ⟨result, rfl, hresult⟩ := stays_result hsound hinvariant hstays
  exact hstays

theorem yields_pure {result : α} (hstays : contract.Stays ensures state result) :
    (pure result : Fallible ε Op Answer α).Yields contract execute ensures state :=
  fun state' hlater hinvariant => ⟨result, rfl, hstays state' hlater hinvariant⟩

theorem yields_raises {outcome : Except ε α} {result : α} (houtcome : outcome = .ok result)
    (hstays : contract.Stays ensures state result) :
    (raises outcome : Fallible ε Op Answer α).Yields contract execute ensures state :=
  fun state' hlater hinvariant => ⟨result, houtcome, hstays state' hlater hinvariant⟩

theorem meets_perform_bind {op : Op} {rest : Answer op → Fallible ε Op Answer β}
    (hop : ∀ state', contract.later state state' → contract.invariant state' →
      contract.allowed state' op → contract.required state' op ∧
        (rest (execute state' op).1).run.Meets contract execute after (execute state' op).2) :
    (perform op >>= rest).run.Meets contract execute after state := hop

theorem yields_perform {op : Op} {ensures : State → Answer op → Prop}
    (hop : ∀ state', contract.later state state' → contract.invariant state' →
      contract.allowed state' op → contract.required state' op ∧
        contract.Stays ensures (execute state' op).2 (execute state' op).1) :
    (perform op : Fallible ε Op Answer (Answer op)).Yields contract execute ensures state := by
  intro state' hlater hinvariant hallowed
  obtain ⟨hrequired, hstays⟩ := hop state' hlater hinvariant hallowed
  exact ⟨hrequired, fun state'' hlater' hinvariant' =>
    ⟨_, rfl, hstays state'' hlater' hinvariant'⟩⟩

theorem yields_forM {Item : Type} {items : List Item} {body : Item → Fallible ε Op Answer PUnit}
    (hsound : contract.Sound execute)
    (hbody : ∀ item ∈ items, ∀ state', contract.later state state' → contract.invariant state' →
      (body item).Yields contract execute (fun _ _ => True) state') :
    Fallible.Yields contract execute (fun _ _ => True) (items.forM body) state := by
  induction items generalizing state with
  | nil => exact yields_pure fun _ _ _ => trivial
  | cons item items ih =>
    change Fallible.Yields contract execute (fun _ _ => True)
      (body item >>= fun _ => items.forM body) state
    refine Prog.Meets.of_later hsound fun state' hlater hinvariant => ?_
    refine Yields.bind hsound (hbody item List.mem_cons_self state' hlater hinvariant) ?_
    intro state'' _ hlater' _ _
    refine ih fun other hother last hlast hkept => ?_
    exact hbody other (List.mem_cons_of_mem _ hother) last
      (hsound.trans hlater (hsound.trans hlater' hlast)) hkept

end Fallible

/-! ## Systems of programs -/

/-- Programs that run at the same time on one state. -/
structure System (State Process Op : Type) (Answer : Op → Type) where
  shared : State
  running : Process → Option (Prog Op Answer Unit)

/-- What can happen next: a process that is idle starts a task, one that is not takes its next
operation, or the state changes by itself. -/
inductive Event (Process Task Change : Type) where
  | start (process : Process) (task : Task)
  | perform (process : Process)
  | change (change : Change)

variable [DecidableEq Process] {code : Task → Prog Op Answer Unit}
  {execute : Process → State → (op : Op) → Answer op × State} {disturb : Change → State → State}

def System.step (code : Task → Prog Op Answer Unit)
    (execute : Process → State → (op : Op) → Answer op × State)
    (disturb : Change → State → State) (system : System State Process Op Answer) :
    Event Process Task Change → Option (System State Process Op Answer)
  | .start process task =>
      match system.running process with
      | none => some { system with
          running := Function.update system.running process (some (code task)) }
      | some _ => none
  | .perform process =>
      match system.running process with
      | some (.perform op next) => some
          { shared := (execute process system.shared op).2
            running := Function.update system.running process
              (some (next (execute process system.shared op).1)) }
      | some (.done _) => some { system with
          running := Function.update system.running process none }
      | none => none
  | .change change => some { system with shared := disturb change system.shared }

def System.Allows (allowed : State → Op → Prop) (system : System State Process Op Answer) :
    Event Process Task Change → Prop
  | .perform process =>
      match system.running process with
      | some (.perform op _) => allowed system.shared op
      | _ => True
  | _ => True

omit [DecidableEq Process] in
theorem allows_of_forall {allowed : State → Op → Prop} (hall : ∀ state op, allowed state op)
    {system : System State Process Op Answer} {event : Event Process Task Change} :
    system.Allows allowed event := by
  cases event with
  | perform process =>
    rw [System.Allows]
    split
    · exact hall _ _
    · trivial
  | _ => trivial

instance [∀ state op, Decidable (allowed state op)] (system : System State Process Op Answer)
    (event : Event Process Task Change) : Decidable (system.Allows allowed event) :=
  match event with
  | .perform process =>
      match h : system.running process with
      | some (.perform op _) =>
          decidable_of_iff (allowed system.shared op) (by rw [System.Allows, h])
      | some (.done _) => isTrue (by rw [System.Allows, h]; trivial)
      | none => isTrue (by rw [System.Allows, h]; trivial)
  | .start _ _ => isTrue trivial
  | .change _ => isTrue trivial

/-- What a run keeps: the invariant, and that each program meets the contract from where it
is. -/
structure System.Kept (contract : Prog.Contract State Op)
    (execute : Process → State → (op : Op) → Answer op × State)
    (system : System State Process Op Answer) : Prop where
  invariant : contract.invariant system.shared
  meets : ∀ process prog, system.running process = some prog →
    prog.Meets contract (execute process) (fun _ _ => True) system.shared

variable {contract : Prog.Contract State Op} {system system' start : System State Process Op Answer}

theorem System.Kept.update (hkept : system.Kept contract execute) {process : Process}
    {shared : State} {next : Option (Prog Op Answer Unit)}
    (hsound : ∀ process, contract.Sound (execute process))
    (hinvariant : contract.invariant shared) (hlater : contract.later system.shared shared)
    (hnext : ∀ prog, next = some prog →
      prog.Meets contract (execute process) (fun _ _ => True) shared) :
    System.Kept contract execute ⟨shared, Function.update system.running process next⟩ where
  invariant := hinvariant
  meets := by
    intro other prog hrunning
    by_cases hother : other = process
    · subst hother
      dsimp only at hrunning
      rw [Function.update_self] at hrunning
      exact hnext prog hrunning
    · dsimp only at hrunning
      rw [Function.update_of_ne hother] at hrunning
      exact (hkept.meets other prog hrunning).later (hsound other) hlater

theorem System.Kept.step (hsound : ∀ process, contract.Sound (execute process))
    (hcode : ∀ process task state, contract.invariant state →
      (code task).Meets contract (execute process) (fun _ _ => True) state)
    (hdisturb : ∀ change state, contract.invariant state →
      contract.invariant (disturb change state) ∧ contract.later state (disturb change state))
    (hkept : system.Kept contract execute) {event : Event Process Task Change}
    (hallows : system.Allows contract.allowed event)
    (hstep : system.step code execute disturb event = some system') :
    system'.Kept contract execute := by
  cases event with
  | start process task =>
    simp only [System.step] at hstep
    split at hstep
    · obtain rfl := Option.some.inj hstep
      refine hkept.update hsound hkept.invariant ((hsound process).refl _) ?_
      rintro prog hprog
      obtain rfl := Option.some.inj hprog
      exact hcode process task system.shared hkept.invariant
    · contradiction
  | perform process =>
    simp only [System.step] at hstep
    simp only [System.Allows] at hallows
    split at hstep
    · next op next hrunning =>
      rw [hrunning] at hallows
      obtain rfl := Option.some.inj hstep
      obtain ⟨hrequired, hnext⟩ := hkept.meets process _ hrunning system.shared
        ((hsound process).refl _) hkept.invariant hallows
      obtain ⟨hinvariant, hlater⟩ :=
        (hsound process).execute hkept.invariant hallows hrequired
      refine hkept.update hsound hinvariant hlater ?_
      rintro prog hprog
      obtain rfl := Option.some.inj hprog
      exact hnext
    · obtain rfl := Option.some.inj hstep
      refine hkept.update hsound hkept.invariant ((hsound process).refl _) fun prog hprog => ?_
      contradiction
    · contradiction
  | change change =>
    obtain rfl := Option.some.inj hstep
    obtain ⟨hinvariant, hlater⟩ := hdisturb change system.shared hkept.invariant
    exact ⟨hinvariant, fun process prog hrunning =>
      (hkept.meets process prog hrunning).later (hsound process) hlater⟩

/-- Programs that each meet the contract keep the invariant in every order of their
operations. -/
theorem invariant_of_run (hsound : ∀ process, contract.Sound (execute process))
    (hcode : ∀ process task state, contract.invariant state →
      (code task).Meets contract (execute process) (fun _ _ => True) state)
    (hdisturb : ∀ change state, contract.invariant state →
      contract.invariant (disturb change state) ∧ contract.later state (disturb change state))
    (hstart : contract.invariant start.shared) (hidle : ∀ process, start.running process = none)
    (hrun : Run (System.step code execute disturb) (System.Allows contract.allowed) start system) :
    contract.invariant system.shared := by
  refine (hrun.invariant (System.Kept contract execute) ⟨hstart, ?_⟩ ?_).invariant
  · intro process prog hrunning
    rw [hidle process] at hrunning
    contradiction
  · intro state event state' hkept hallowed hstep
    exact hkept.step hsound hcode hdisturb hallowed hstep

end Forail.Interleaving

import ToonScript.Proofs.Plan

/-!
# Contracts of plans

A contract says what is known of carrying a plan out on the machines that satisfy a condition:
something of every moment on the way, something of the result and the machine after it if the
plan succeeds, something of the reason and the machine if it stops. What is known on the way and
at a stop is the same for all parts of a plan; what is known between the parts is handed from
one to the next.
-/

set_option autoImplicit false

namespace ToonScript.Plan

variable {α β : Type} {before : Machine → Prop} {during : Moment → Prop} {stopped : Stop →
  Machine → Prop}

theorem history_perform (deed : Deed) (machine : Machine) :
    (perform deed).history machine = [⟨deed, machine⟩] := by
  cases performed : deed.perform machine with
  | ok result after => exact history_act_of_ok performed
  | error reason after => exact history_act_of_error performed

theorem history_step_of_ok {deed : Deed} {next : deed.Result → Plan α} {machine after : Machine}
    {result : deed.Result} (performed : deed.perform machine = .ok result after) :
    (perform deed >>= next).history machine = ⟨deed, machine⟩ :: (next result).history after :=
  history_act_of_ok performed

theorem history_step_of_error {deed : Deed} {next : deed.Result → Plan α}
    {machine after : Machine} {reason : Stop}
    (performed : deed.perform machine = .error reason after) :
    (perform deed >>= next).history machine = [⟨deed, machine⟩] :=
  history_act_of_error performed

/-- What is known of carrying a plan out on a machine that satisfies `before`. -/
structure Meets (plan : Plan α) (before : Machine → Prop) (during : Moment → Prop)
    (after : α → Machine → Prop) (stopped : Stop → Machine → Prop) : Prop where
  moments : ∀ machine, before machine → ∀ moment ∈ plan.history machine, during moment
  succeeds : ∀ machine, before machine →
    ∀ result final, plan.run machine = .ok result final → after result final
  stops : ∀ machine, before machine →
    ∀ reason final, plan.run machine = .error reason final → stopped reason final

namespace Meets

variable {after : α → Machine → Prop}

theorem pure {result : α} (known : ∀ machine, before machine → after result machine) :
    (pure result : Plan α).Meets before during after stopped where
  moments _ _ _ member := by cases member
  succeeds machine holds _ _ carried := by
    cases carried
    exact known machine holds
  stops _ _ _ _ carried := by cases carried

/-- Nothing is asked of any plan. -/
theorem any (plan : Plan α) :
    plan.Meets before (fun _ => True) (fun _ _ => True) fun _ _ => True :=
  ⟨fun _ _ _ _ => trivial, fun _ _ _ _ _ => trivial, fun _ _ _ _ _ => trivial⟩

/-- A contract may ask for more and promise less. -/
theorem mono {plan : Plan α} {before' : Machine → Prop} {during' : Moment → Prop}
    {after' : α → Machine → Prop} {stopped' : Stop → Machine → Prop}
    (meets : plan.Meets before during after stopped)
    (asks : ∀ machine, before' machine → before machine)
    (onTheWay : ∀ moment, during moment → during' moment)
    (promises : ∀ result final, after result final → after' result final)
    (explains : ∀ reason final, stopped reason final → stopped' reason final) :
    plan.Meets before' during' after' stopped' where
  moments machine holds moment member :=
    onTheWay moment (meets.moments machine (asks machine holds) moment member)
  succeeds machine holds result final carried :=
    promises result final (meets.succeeds machine (asks machine holds) result final carried)
  stops machine holds reason final carried :=
    explains reason final (meets.stops machine (asks machine holds) reason final carried)

theorem stop {reason : Stop} (known : ∀ machine, before machine → stopped reason machine) :
    (stop reason : Plan α).Meets before during after stopped where
  moments _ _ _ member := by cases member
  succeeds _ _ _ _ carried := by cases carried
  stops machine holds _ _ carried := by
    cases carried
    exact known machine holds

theorem perform {deed : Deed} {after : deed.Result → Machine → Prop}
    (known : ∀ machine, before machine → during ⟨deed, machine⟩)
    (knownAfter : ∀ machine, before machine →
      ∀ result final, deed.perform machine = .ok result final → after result final)
    (knownStopped : ∀ machine, before machine →
      ∀ reason final, deed.perform machine = .error reason final → stopped reason final) :
    (perform deed).Meets before during after stopped where
  moments machine holds moment member := by
    rw [history_perform] at member
    exact List.mem_singleton.mp member ▸ known machine holds
  succeeds machine holds result final carried := by
    rw [run_perform] at carried
    exact knownAfter machine holds result final carried
  stops machine holds reason final carried := by
    rw [run_perform] at carried
    exact knownStopped machine holds reason final carried

theorem bind {plan : Plan α} {next : α → Plan β} {last : β → Machine → Prop}
    (meets : plan.Meets before during after stopped)
    (meetsNext : ∀ result, (next result).Meets (after result) during last stopped) :
    (plan >>= next).Meets before during last stopped where
  moments machine holds moment member := by
    cases carried : plan.run machine with
    | ok result middle =>
        rw [history_bind_of_ok carried, List.mem_append] at member
        rcases member with early | late
        · exact meets.moments machine holds moment early
        · have reached := meets.succeeds machine holds result middle carried
          exact (meetsNext result).moments middle reached moment late
    | error reason middle =>
        rw [history_bind_of_error carried] at member
        exact meets.moments machine holds moment member
  succeeds machine holds result final carried := by
    rw [run_bind] at carried
    obtain ⟨given, middle, begun, ended⟩ := bind_eq_ok.mp carried
    have reached := meets.succeeds machine holds given middle begun
    exact (meetsNext given).succeeds middle reached result final ended
  stops machine holds reason final carried := by
    rw [run_bind] at carried
    rcases bind_eq_error.mp carried with failed | ⟨given, middle, begun, ended⟩
    · exact meets.stops machine holds reason final failed
    · have reached := meets.succeeds machine holds given middle begun
      exact (meetsNext given).stops middle reached reason final ended

end Meets

end ToonScript.Plan

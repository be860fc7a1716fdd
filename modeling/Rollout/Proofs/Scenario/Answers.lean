import Rollout.Proofs.Scenario.Asking

/-!
# Answers and what checks ask of them

A check looks at the answers to its requests one after the other, and goes on when each is as it
should be. Which answers requests in a row get is laid down in the world, and which requests were
made is in its log; so what a run has received can be said of the worlds before and behind it.

- `Response.Says`: a response with a text in a member of its body.
- `requireStatus_ok_iff`, `requireField_ok_iff`, `requireDown_ok_iff`: **what goes on**.
- `World.outcomesOf`, `World.Received`: the outcomes of requests in a row, and the responses to
  those that a run has sent.
- `ask_ok_iff`: a request that is answered.
- `refused_outcomes_iff`: requests in a row that were all refused.
-/

namespace Rollout

/-! ## What a response says -/

/-- The body of the response is an object with a text as its member. -/
def Response.Says (response : Response) (name text : String) : Prop :=
  ∃ members, Json.read? response.body = some (.obj members) ∧ members.lookup name = some (.str text)

theorem Json.same_text_iff {value : Json} {text : String} :
    value.same (.str text) = true ↔ value = .str text := by
  cases value <;> simp [Json.same, Json.asNumber?]

theorem Json.member?_eq_some_iff {body value : Json} {name : String} :
    body.member? name = some value ↔
      ∃ members, body = .obj members ∧ members.lookup name = some value := by
  cases body with
  | obj members =>
    constructor
    · exact fun hlookup => ⟨members, rfl, hlookup⟩
    · rintro ⟨_, ⟨⟩, hlookup⟩
      exact hlookup
  | _ => exact iff_of_false nofun nofun

theorem Response.member_eq_ok_iff {response : Response} {name : String} {value : Json} :
    response.member name = .ok value ↔
      ∃ members, Json.read? response.body = some (.obj members) ∧
        members.lookup name = some value := by
  unfold member json
  cases Json.read? response.body with
  | none => exact iff_of_false nofun nofun
  | some body =>
    have hbody : (∃ members, some body = some (.obj members) ∧ members.lookup name = some value) ↔
        body.member? name = some value := by
      simp only [Option.some.injEq, Json.member?_eq_some_iff]
    rw [hbody]
    cases hmember : body.member? name with
    | none =>
      simp only [bind, Except.bind, hmember]
      exact iff_of_false nofun nofun
    | some member =>
      simp only [bind, Except.bind, hmember, Option.some.injEq]
      exact Except.ok.injEq member value ▸ Iff.rfl

/-! ## Parts of a check -/

theorem Run.bind_ok_iff {α β : Type} {run : Run α} {next : α → Run β} {world behind : World}
    {b : β} : (run >>= next) world = .ok b behind ↔
      ∃ a mid, run world = .ok a mid ∧ next a mid = .ok b behind := by
  cases hrun : run world with
  | ok a mid =>
    rw [bind_of_ok hrun]
    exact ⟨fun h => ⟨a, mid, rfl, h⟩, by rintro ⟨_, _, ⟨⟩, h⟩; exact h⟩
  | error failure mid =>
    rw [bind_of_error hrun]
    exact iff_of_false nofun (by rintro ⟨_, _, ⟨⟩, _⟩)

theorem Run.ite_bind {α β : Type} (c : Prop) [Decidable c] (first second : Run α)
    (next : α → Run β) :
    (if c then first else second) >>= next = if c then first >>= next else second >>= next := by
  split <;> rfl

section Requirements

variable {response : Response} {world behind : World} {done : Unit}

theorem requireStatus_ok_iff {expected : Int} {what : String} :
    requireStatus response expected what world = .ok done behind ↔
      response.status = expected ∧ behind = world := by
  unfold requireStatus
  split
  · rename_i hstatus
    exact ⟨fun h => by cases h; exact ⟨hstatus, rfl⟩, by rintro ⟨-, rfl⟩; rfl⟩
  · rename_i hstatus
    exact iff_of_false nofun fun h => hstatus h.1

theorem requireField_ok_iff {name text : String} :
    requireField response name text world = .ok done behind ↔
      response.Says name text ∧ behind = world := by
  unfold requireField Response.Says
  rw [Run.bind_ok_iff]
  constructor
  · rintro ⟨value, mid, hmember, hsame⟩
    rw [Run.ofExcept_run] at hmember
    cases hvalue : response.member name with
    | error failure =>
      rw [hvalue] at hmember
      cases hmember
    | ok value =>
      rw [hvalue] at hmember
      cases hmember
      unfold requireText at hsame
      split at hsame
      · rename_i hequal
        cases hsame
        rw [Json.same_text_iff.mp hequal] at hvalue
        exact ⟨Response.member_eq_ok_iff.mp hvalue, rfl⟩
      · cases hsame
  · rintro ⟨htext, rfl⟩
    refine ⟨.str text, behind, ?_, ?_⟩
    · rw [Run.ofExcept_run, Response.member_eq_ok_iff.mpr htext]
      rfl
    · unfold requireText
      rw [if_pos (Json.same_text_iff.mpr rfl)]
      rfl

/-- An application that was stopped is down. -/
theorem requireDown_ok_iff :
    (do
      if response.status = statusOk then throw .stillAlive
      requireField response "outcome" "DOWN" : Run Unit) world = .ok done behind ↔
      (response.status ≠ statusOk ∧ response.Says "outcome" "DOWN") ∧ behind = world := by
  split
  · rename_i hstatus
    exact iff_of_false nofun fun h => h.1.1 hstatus
  · rename_i hstatus
    rw [requireField_ok_iff, and_assoc]
    exact (and_iff_right hstatus).symm

end Requirements

/-! ## Requests in a row -/

/-- The outcome that is a response. -/
def Response.outcome (response : Response) : Outcome :=
  .response response.status response.body

/-- The world once a page was asked for. -/
def World.visited (context : Context) (world : World) (url : String) : World :=
  (world.answered (pageKey url)).logging [context.pageEvent url]

/-- The outcomes of requests in a row. -/
def World.outcomesOf : List String → World → List Outcome
  | [], _ => []
  | key :: keys, world => world.outcomeOf key 0 :: outcomesOf keys (world.answered key)

/-- What identifies a request that was sent. -/
def SentRequest.key (sent : SentRequest) : String :=
  sent.method ++ " " ++ sent.url

/-- What identifies the requests of some events. -/
def requestKeys (events : List Event) : List String :=
  (events.filterMap Event.request?).map SentRequest.key

/-- **The responses received** between two worlds of a run: all its requests were answered, and
these are the answers. -/
def World.Received (world behind : World) (responses : List Response) : Prop :=
  ∃ events, behind.log = world.log ++ events ∧
    world.outcomesOf (requestKeys events) = responses.map Response.outcome

section Rows

variable (context : Context) (url : String)

theorem ask_ok_iff {response : Response} {world behind : World} :
    context.ask "GET" url none world = .ok response behind ↔
      world.outcomeOf (pageKey url) 0 = response.outcome ∧ behind = world.visited context url := by
  have hask : context.ask "GET" url none world
      = Run.ending ((world.outcomeOf (pageKey url) 0).received url) (world.visited context url) :=
    ask_run context url .zero world
  rw [hask]
  cases world.outcomeOf (pageKey url) 0 with
  | response status body =>
    obtain ⟨other, text⟩ := response
    constructor
    · rintro ⟨⟩
      exact ⟨rfl, rfl⟩
    · rintro ⟨⟨⟩, rfl⟩
      rfl
  | fault fault => exact iff_of_false nofun nofun

/-- Outcomes are laid down in the routes. -/
theorem outcomesOf_congr {first second : World} (h : first.routes = second.routes)
    (keys : List String) : first.outcomesOf keys = second.outcomesOf keys := by
  induction keys generalizing first second with
  | nil => rfl
  | cons key keys ih =>
    have hfirst : first.outcomeOf key 0 = second.outcomeOf key 0 := by
      unfold World.outcomeOf World.outcomes
      rw [h]
    have hrest : (first.answered key).routes = (second.answered key).routes :=
      congrArg (Run.advance key) h
    exact congrArg₂ List.cons hfirst (ih hrest)

theorem outcomesOf_cons_page (keys : List String) (world : World) :
    world.outcomesOf (pageKey url :: keys)
      = world.outcomeOf (pageKey url) 0 :: (world.visited context url).outcomesOf keys := by
  have hroutes : (world.answered (pageKey url)).routes = (world.visited context url).routes := rfl
  exact congrArg (List.cons _) (outcomesOf_congr hroutes keys)

/-- The same request again and again. -/
theorem outcomesOf_replicate (key : String) (n : Nat) (world : World) :
    world.outcomesOf (List.replicate n key) = (List.range n).map (world.outcomeOf key) := by
  induction n generalizing world with
  | zero => rfl
  | succ n ih =>
    rw [List.replicate_succ, World.outcomesOf, ih, List.range_succ_eq_map, List.map_cons,
      List.map_map]
    exact congrArg (List.cons _) (List.map_congr_left fun i _ => world.outcomeOf_answered key i)

theorem requestKeys_append (first second : List Event) :
    requestKeys (first ++ second) = requestKeys first ++ requestKeys second := by
  unfold requestKeys
  rw [List.filterMap_append, List.map_append]

/-- The pauses between requests are no requests. -/
theorem requestKeys_pollEvents (pause : Binary64) (n : Nat) :
    requestKeys (pollEvents (context.pageEvent url) pause n) = List.replicate n (pageKey url) := by
  induction n with
  | zero => rfl
  | succ n ih =>
    cases n with
    | zero => rfl
    | succ n =>
      rw [pollEvents_succ, requestKeys_append, ih]
      rfl

end Rows

/-- A response with status 200 is no refusal. -/
theorem not_refused_of_ok {outcome : Outcome} {body : String}
    (h : outcome = .response statusOk body) : ¬ outcome.Refused := by
  rw [h]
  exact not_not_intro rfl

/-- Outcomes of requests that were all refused are responses with other statuses than 200. -/
theorem refused_outcomes_iff (outcomes : List Outcome) :
    (∀ outcome ∈ outcomes, outcome.Refused) ↔
      ∃ responses : List Response, outcomes = responses.map Response.outcome ∧
        ∀ response ∈ responses, response.status ≠ statusOk := by
  induction outcomes with
  | nil => exact iff_of_true (by simp) ⟨[], rfl, by simp⟩
  | cons outcome rest ih =>
    rw [List.forall_mem_cons, ih]
    constructor
    · rintro ⟨hrefused, responses, rfl, hothers⟩
      cases outcome with
      | response status body =>
        exact ⟨⟨status, body⟩ :: responses, rfl, List.forall_mem_cons.mpr ⟨hrefused, hothers⟩⟩
      | fault fault => exact hrefused.elim
    · rintro ⟨responses, hmap, hothers⟩
      cases responses with
      | nil => cases hmap
      | cons response responses =>
        cases hmap
        obtain ⟨hfirst, hrest⟩ := List.forall_mem_cons.mp hothers
        exact ⟨hfirst, responses, rfl, hrest⟩

end Rollout

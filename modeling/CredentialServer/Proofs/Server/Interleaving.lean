import CredentialServer.Server.Http
import Mathlib.Data.ENat.Basic

/-! # Requests that are answered at the same time

The tokens are all that requests share, and a request touches them in one critical section for its
authentication and one for each operation.  The clock is read before a section is entered, so other
requests may come between.  A `Turn` is one reading or one section of one request, and any sequence
of turns is a run.  Main statements: `run_alone` (a request that nobody disturbs is answered as
`answerBatch` says), and `ActsAt.unique` (no section is entered twice). -/

namespace CredentialServer
namespace World

/-! ### Turns -/

/-- How far the answer to a request has come. -/
inductive Stage where
  | arrived
  /-- The operations that have an answer were run; the next one is run as `acting`. -/
  | running (acting : Account) (l : List Operation) (answers : List String)
  | answered (outcome : Except Refusal Bytes)

/-- A request that is being answered, with the clocks that it read last. -/
structure Exchange where
  request : Request
  reading : Option Moment
  stage : Stage

/-- All requests and the tokens. -/
structure Traffic where
  exchanges : List Exchange
  registry : Registry

/-- What a request does in one critical section, with the clocks that it read before. -/
def advance (w : World) (now : Moment) (r : Registry) (q : Request) : Stage → Stage × Registry
  | .arrived =>
    if longestBatch < q.body.length then (.answered (.error .badRequest), r)
    else match authenticate w.directory w.authentication now r q.credentials with
      | (.error _, r) => (.answered (.error .unauthorized), r)
      | (.ok account, r) =>
        match Batch.read? q.body with
        | none => (.answered (.error (.ofOperation .malformedBatch)), r)
        | some l => (.running account l [], r)
  | .running acting l answers =>
    match l[answers.length]? with
    | none => (.answered (.ok (Batch.encodeStrings answers)), r)
    | some o =>
      match w.engine.invoke now ⟨acting, r⟩ o with
      | .error err => (.answered (.error (.ofOperation err)), r)
      | .ok (answer, s) => (.running s.acting l (answers ++ [answer]), s.registry)
  | .answered outcome => (.answered outcome, r)

/-- What a critical section can do: it answers the request, or lets it in, or runs one operation.
Only what it asked the registry for is changed there. -/
theorem advance_cases (w : World) (now : Moment) (r : Registry) (q : Request) (stage : Stage) :
    (∃ outcome, w.advance now r q stage = (.answered outcome, r)) ∨
    (stage = .arrived ∧ q.body.length ≤ longestBatch ∧
      ∃ result r', authenticate w.directory w.authentication now r q.credentials = (result, r') ∧
        ((∃ outcome, w.advance now r q stage = (.answered outcome, r')) ∨
          ∃ account l, result = .ok account ∧ Batch.read? q.body = some l ∧
            w.advance now r q stage = (.running account l [], r'))) ∨
    ∃ acting l answers o answer s, stage = .running acting l answers ∧
      l[answers.length]? = some o ∧ w.engine.invoke now ⟨acting, r⟩ o = .ok (answer, s) ∧
      w.advance now r q stage = (.running s.acting l (answers ++ [answer]), s.registry) := by
  cases stage with
  | arrived =>
      by_cases hlength : longestBatch < q.body.length
      · exact .inl ⟨_, by simp only [advance, if_pos hlength]; rfl⟩
      · refine .inr (.inl ⟨rfl, Nat.not_lt.mp hlength, ?_⟩)
        simp only [advance, if_neg hlength]
        cases hauth : authenticate w.directory w.authentication now r q.credentials with
        | mk result r' =>
            refine ⟨result, r', rfl, ?_⟩
            cases result with
            | error err => exact .inl ⟨_, rfl⟩
            | ok account =>
                cases hbatch : Batch.read? q.body with
                | none => exact .inl ⟨_, rfl⟩
                | some l => exact .inr ⟨account, l, rfl, rfl, rfl⟩
  | running acting l answers =>
      cases hentry : l[answers.length]? with
      | none => exact .inl ⟨_, by simp only [advance, hentry]; rfl⟩
      | some o =>
          cases hinvoke : w.engine.invoke now ⟨acting, r⟩ o with
          | error err => exact .inl ⟨_, by simp only [advance, hentry, hinvoke]; rfl⟩
          | ok result =>
              obtain ⟨answer, s⟩ := result
              refine .inr (.inr ⟨acting, l, answers, o, answer, s, rfl, hentry, hinvoke, ?_⟩)
              simp only [advance, hentry, hinvoke]
  | answered outcome => exact .inl ⟨outcome, rfl⟩

/-- What happens next: a request reads its clocks, or enters the critical section for which it read
them. -/
inductive Turn where
  | read (i : Nat) (now : Moment)
  | act (i : Nat)

namespace Traffic

/-- Requests that have just arrived, and no token. -/
def start (requests : List Request) : Traffic := ⟨requests.map (⟨·, none, .arrived⟩), .empty⟩

/-- One turn.  Who has not read the clocks waits. -/
def turn (w : World) (t : Traffic) : Turn → Traffic
  | .read i now =>
    match t.exchanges[i]? with
    | some x => { t with exchanges := t.exchanges.set i { x with reading := some now } }
    | none => t
  | .act i =>
    match t.exchanges[i]? with
    | some ⟨q, some now, stage⟩ =>
      ⟨t.exchanges.set i ⟨q, none, (w.advance now t.registry q stage).1⟩,
        (w.advance now t.registry q stage).2⟩
    | _ => t

def run (w : World) (t : Traffic) (turns : List Turn) : Traffic := turns.foldl (turn w) t

variable {w : World} {t : Traffic} {i : Nat} {q : Request} {now : Moment} {stage : Stage}
variable {reading : Option Moment}

theorem turn_act (h : t.exchanges[i]? = some ⟨q, some now, stage⟩) : t.turn w (.act i) =
    ⟨t.exchanges.set i ⟨q, none, (w.advance now t.registry q stage).1⟩,
      (w.advance now t.registry q stage).2⟩ := by
  simp only [turn, h]

theorem turn_read (h : t.exchanges[i]? = some ⟨q, reading, stage⟩) (now : Moment) :
    t.turn w (.read i now) = ⟨t.exchanges.set i ⟨q, some now, stage⟩, t.registry⟩ := by
  simp only [turn, h]

theorem run_append (turns more : List Turn) :
    t.run w (turns ++ more) = (t.run w turns).run w more :=
  List.foldl_append

theorem run_read_act (h : t.exchanges[i]? = some ⟨q, none, stage⟩) (now : Moment) :
    t.run w [.read i now, .act i] =
      ⟨t.exchanges.set i ⟨q, none, (w.advance now t.registry q stage).1⟩,
        (w.advance now t.registry q stage).2⟩ := by
  obtain ⟨hi, hx⟩ := List.getElem?_eq_some_iff.mp h
  have hnext : (t.exchanges.set i ⟨q, some now, stage⟩)[i]? = some ⟨q, some now, stage⟩ :=
    List.getElem?_set_self hi
  show (t.turn w (.read i now)).turn w (.act i) = _
  rw [turn_read h, turn_act hnext, List.set_set]

end Traffic

/-! ### A request that nobody disturbs -/

/-- The stage of a request and the tokens after `n` sections of its own and no other. -/
def alone (w : World) (moments : Nat → Moment) (r : Registry) (q : Request) : Nat → Stage × Registry
  | 0 => (.arrived, r)
  | n + 1 =>
    w.advance (moments n) (alone w moments r q n).2 q (alone w moments r q n).1

/-- The turns of one request, `n` times. -/
def turnsOf (i : Nat) (moments : Nat → Moment) : Nat → List Turn
  | 0 => []
  | n + 1 => turnsOf i moments n ++ [.read i (moments n), .act i]

theorem run_turnsOf {w : World} {t : Traffic} {i : Nat} {q : Request}
    (h : t.exchanges[i]? = some ⟨q, none, .arrived⟩) (moments : Nat → Moment) (n : Nat) :
    t.run w (turnsOf i moments n) =
      ⟨t.exchanges.set i ⟨q, none, (w.alone moments t.registry q n).1⟩,
        (w.alone moments t.registry q n).2⟩ := by
  obtain ⟨hi, hx⟩ := List.getElem?_eq_some_iff.mp h
  induction n with
  | zero =>
      unfold turnsOf alone
      rw [← hx, List.set_getElem_self]
      rfl
  | succ n ih =>
      have hself : (t.exchanges.set i ⟨q, none, (w.alone moments t.registry q n).1⟩)[i]? =
          some ⟨q, none, (w.alone moments t.registry q n).1⟩ := List.getElem?_set_self hi
      unfold turnsOf
      rw [Traffic.run_append, ih, Traffic.run_read_act hself, List.set_set]
      rfl

/-- The rest of a batch, run in sections, is the rest of its run. -/
theorem alone_running {w : World} {moments : Nat → Moment} {r : Registry} {q : Request}
    {l rest : List Operation} {answers : List String} {s : Session}
    (hrest : l.drop answers.length = rest)
    (h : w.alone moments r q (answers.length + 1) = (.running s.acting l answers, s.registry)) :
    ∃ n, w.alone moments r q n =
      match w.engine.runFrom (fun n => moments (n + 1)) answers.length s rest with
      | (.ok more, s) => (.answered (.ok (Batch.encodeStrings (answers ++ more))), s.registry)
      | (.error err, s) => (.answered (.error (.ofOperation err)), s.registry) := by
  induction rest generalizing answers s with
  | nil =>
      have hnone : l[answers.length]? = none := by
        rw [List.getElem?_eq_none_iff]
        exact List.drop_eq_nil_iff.mp hrest
      refine ⟨answers.length + 2, ?_⟩
      rw [alone, h]
      simp only [advance, hnone, Engine.runFrom, List.append_nil]
  | cons o rest ih =>
      have hsome : l[answers.length]? = some o := by
        rw [← List.head?_drop, hrest]
        rfl
      rw [Engine.runFrom]
      cases hinvoke : w.engine.invoke (moments (answers.length + 1)) s o with
      | error err =>
          refine ⟨answers.length + 2, ?_⟩
          rw [alone, h]
          simp only [advance, hsome, hinvoke]
      | ok result =>
          obtain ⟨answer, s'⟩ := result
          have hlength : (answers ++ [answer]).length = answers.length + 1 := by simp
          have hdrop : l.drop (answers ++ [answer]).length = rest := by
            rw [hlength, ← List.drop_drop, hrest]
            rfl
          have hstep : w.alone moments r q ((answers ++ [answer]).length + 1) =
              (.running s'.acting l (answers ++ [answer]), s'.registry) := by
            rw [hlength, alone, h]
            simp only [advance, hsome, hinvoke]
          obtain ⟨n, hn⟩ := ih hdrop hstep
          refine ⟨n, ?_⟩
          rw [hn, hlength]
          cases hmore : w.engine.runFrom (fun n => moments (n + 1)) (answers.length + 1) s'
              rest with
          | mk result u => cases result <;> simp [hmore]

/-- In sections, a request is answered as it is in one go. -/
theorem exists_alone_eq (w : World) (moments : Nat → Moment) (r : Registry) (q : Request) :
    ∃ n, w.alone moments r q n =
      (.answered (w.answerBatch moments r q).1, (w.answerBatch moments r q).2) := by
  unfold answerBatch
  by_cases hlength : longestBatch < q.body.length
  · refine ⟨1, ?_⟩
    simp only [alone, advance, if_pos hlength]
  · rw [if_neg hlength]
    cases hauth : authenticate w.directory w.authentication (moments 0) r q.credentials with
    | mk result r' =>
        cases result with
        | error err =>
            refine ⟨1, ?_⟩
            simp only [alone, advance, if_neg hlength, hauth]
        | ok account =>
            simp only [Engine.runText]
            cases hbatch : Batch.read? q.body with
            | none =>
                refine ⟨1, ?_⟩
                simp only [alone, advance, if_neg hlength, hauth, hbatch]
            | some l =>
                have hfirst : w.alone moments r q (([] : List String).length + 1) =
                    (.running (Session.mk account r').acting l [],
                      (Session.mk account r').registry) := by
                  simp only [List.length_nil, alone, advance, if_neg hlength, hauth, hbatch]
                have hrest : l.drop ([] : List String).length = l := rfl
                obtain ⟨n, hn⟩ := alone_running hrest hfirst
                refine ⟨n, ?_⟩
                rw [hn]
                unfold Engine.run
                simp only [List.length_nil, List.nil_append]
                cases w.engine.runFrom (fun n => moments (n + 1)) 0 ⟨account, r'⟩ l with
                | mk result s => cases result <;> rfl

/-- A request whose turns follow each other without others between them is answered as
`answerBatch` says. -/
theorem run_alone (w : World) {t : Traffic} {i : Nat} {q : Request}
    (h : t.exchanges[i]? = some ⟨q, none, .arrived⟩) (moments : Nat → Moment) :
    ∃ n, t.run w (turnsOf i moments n) =
      ⟨t.exchanges.set i ⟨q, none, .answered (w.answerBatch moments t.registry q).1⟩,
        (w.answerBatch moments t.registry q).2⟩ := by
  obtain ⟨n, hn⟩ := w.exists_alone_eq moments t.registry q
  refine ⟨n, ?_⟩
  rw [run_turnsOf h, hn]

/-! ### No section is entered twice -/

/-- How many sections a request has been through; one that was answered never enters a section
again. -/
def Stage.position : Stage → ℕ∞
  | .arrived => 0
  | .running _ _ answers => answers.length + 1
  | .answered _ => ⊤

theorem position_running (acting : Account) (l : List Operation) (answers : List String) :
    (Stage.running acting l answers).position = ((answers.length + 1 : ℕ) : ℕ∞) := rfl

theorem position_advance (w : World) (now : Moment) (r : Registry) (q : Request) (stage : Stage) :
    stage.position + 1 ≤ (w.advance now r q stage).1.position := by
  rcases w.advance_cases now r q stage with ⟨outcome, h⟩ |
    ⟨rfl, -, result, r', -, ⟨outcome, h⟩ | ⟨account, l, -, -, h⟩⟩ |
      ⟨acting, l, answers, o, answer, s, rfl, -, -, h⟩
  · rw [h]
    exact le_top
  · rw [h]
    exact le_top
  · rw [h]
    simp [Stage.position]
  · rw [h]
    simp [Stage.position]

namespace Traffic

/-- The position of a request. -/
def position (t : Traffic) (i : Nat) : ℕ∞ :=
  match t.exchanges[i]? with
  | some x => x.stage.position
  | none => ⊤

theorem position_of_exchange {t : Traffic} {i : Nat} {x : Exchange}
    (h : t.exchanges[i]? = some x) : t.position i = x.stage.position := by
  unfold position
  rw [h]

theorem position_set {t : Traffic} {j : Nat} {x y : Exchange} (hx : t.exchanges[j]? = some x)
    (hle : x.stage.position ≤ y.stage.position) (r : Registry) (i : Nat) :
    t.position i ≤ (Traffic.mk (t.exchanges.set j y) r).position i := by
  obtain ⟨hj, -⟩ := List.getElem?_eq_some_iff.mp hx
  by_cases hij : j = i
  · subst hij
    rw [position_of_exchange hx, position_of_exchange (List.getElem?_set_self hj)]
    exact hle
  · unfold position
    rw [List.getElem?_set_ne hij]

theorem position_le_turn (w : World) (t : Traffic) (a : Turn) (i : Nat) :
    t.position i ≤ (t.turn w a).position i := by
  cases a with
  | read j now =>
      cases hx : t.exchanges[j]? with
      | none => simp [turn, hx]
      | some x =>
          rw [turn_read hx]
          exact position_set (y := { x with reading := some now }) hx le_rfl _ i
  | act j =>
      simp only [turn]
      split
      · next q now stage hx =>
        have hle : stage.position ≤ (w.advance now t.registry q stage).1.position :=
          le_self_add.trans (position_advance w now t.registry q stage)
        exact position_set hx hle _ i
      · exact le_rfl

/-- The traffic after the first `k` turns of a run. -/
def after (w : World) (requests : List Request) (turns : List Turn) (k : Nat) : Traffic :=
  (start requests).run w (turns.take k)

theorem after_succ {w : World} {requests : List Request} {turns : List Turn} {k : Nat} {a : Turn}
    (h : turns[k]? = some a) : after w requests turns (k + 1) =
      (after w requests turns k).turn w a := by
  unfold after
  rw [List.take_add_one, h, run_append]
  rfl

theorem after_succ_of_length_le {w : World} {requests : List Request} {turns : List Turn} {k : Nat}
    (h : turns.length ≤ k) : after w requests turns (k + 1) = after w requests turns k := by
  unfold after
  rw [List.take_of_length_le h, List.take_of_length_le (by omega)]

theorem position_mono (w : World) (requests : List Request) (turns : List Turn) (i : Nat)
    {k k' : Nat} (h : k ≤ k') :
    (after w requests turns k).position i ≤ (after w requests turns k').position i := by
  induction k', h using Nat.le_induction with
  | base => exact le_rfl
  | succ k' _ ih =>
      refine ih.trans ?_
      rcases Nat.lt_or_ge k' turns.length with hlt | hge
      · rw [after_succ (List.getElem?_eq_getElem hlt)]
        exact position_le_turn w _ _ i
      · rw [after_succ_of_length_le hge]

end Traffic

/-- Turn number `k` of a run is a section of request `i`, which is at a stage and has read its
clocks. -/
structure ActsAt (w : World) (requests : List Request) (turns : List Turn) (k i : Nat)
    (q : Request) (now : Moment) (stage : Stage) : Prop where
  turn : turns[k]? = some (.act i)
  exchange : (Traffic.after w requests turns k).exchanges[i]? = some ⟨q, some now, stage⟩

section
variable {w : World} {requests : List Request} {turns : List Turn} {k k' i : Nat}
variable {q q' : Request} {now now' : Moment} {stage stage' : Stage}

theorem ActsAt.after_succ (h : ActsAt w requests turns k i q now stage) :
    Traffic.after w requests turns (k + 1) =
      ⟨(Traffic.after w requests turns k).exchanges.set i
          ⟨q, none, (w.advance now (Traffic.after w requests turns k).registry q stage).1⟩,
        (w.advance now (Traffic.after w requests turns k).registry q stage).2⟩ := by
  rw [Traffic.after_succ h.turn, Traffic.turn_act h.exchange]

theorem ActsAt.position_lt (h : ActsAt w requests turns k i q now stage)
    (h' : ActsAt w requests turns k' i q' now' stage') (hk : k < k') :
    stage.position + 1 ≤ stage'.position := by
  obtain ⟨hi, -⟩ := List.getElem?_eq_some_iff.mp h.exchange
  have hnext : (Traffic.after w requests turns (k + 1)).position i =
      (w.advance now (Traffic.after w requests turns k).registry q stage).1.position := by
    rw [h.after_succ, Traffic.position, List.getElem?_set_self hi]
  have hlater := Traffic.position_mono w requests turns i (show k + 1 ≤ k' from hk)
  rw [hnext, Traffic.position_of_exchange h'.exchange] at hlater
  exact (position_advance _ _ _ _ _).trans hlater

/-- A request enters each of its sections once. -/
theorem ActsAt.unique (h : ActsAt w requests turns k i q now stage)
    (h' : ActsAt w requests turns k' i q' now' stage') (hsame : stage.position = stage'.position)
    (hfinite : stage.position ≠ ⊤) : k = k' := by
  have hne : ¬ stage.position + 1 ≤ stage.position :=
    not_le.mpr (ENat.lt_add_one_iff hfinite |>.mpr le_rfl)
  rcases Nat.lt_trichotomy k k' with hlt | heq | hgt
  · have := h.position_lt h' hlt
    rw [← hsame] at this
    exact absurd this hne
  · exact heq
  · have := h'.position_lt h hgt
    rw [← hsame] at this
    exact absurd this hne

end

end World
end CredentialServer

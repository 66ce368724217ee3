import CredentialServer.Proofs.Grants.Sequence
import CredentialServer.Proofs.Server.Mediation

/-! # What the sender of a batch is told

A batch that is posted is checked four times: for its length, for the credentials of its sender, for
being a batch at all, and operation by operation.  The first check that fails decides.  `Course` has
one case for each outcome, and a request takes exactly one course (`course_iff`), so what a status
says is read off the cases.  Main statement: `discloses_of_posts`. -/

namespace CredentialServer

/-- What is told of a refused operation, and when. -/
theorem Refusal.ofOperation_cases (err : OperationError) :
    (∃ principal api, err = .forbidden principal api) ∧ ofOperation err = .forbidden ∨
      (∀ principal api, err ≠ .forbidden principal api) ∧ ofOperation err = .badRequest := by
  cases err with
  | forbidden principal api => exact .inl ⟨⟨principal, api, rfl⟩, rfl⟩
  | malformedBatch => exact .inr ⟨nofun, rfl⟩
  | unknownApi api => exact .inr ⟨nofun, rfl⟩
  | failed api principal cause => exact .inr ⟨nofun, rfl⟩

namespace World

/-- A request posts a batch. -/
structure Posts (q : Request) : Prop where
  route : Route.ofTarget q.target = .batch
  method : q.method = "POST"

/-- The account that a request is accepted as, with the tokens after its authentication. -/
abbrev admission (w : World) (r : Registry) (v : Visit) :
    Except AuthenticationError Account × Registry :=
  authenticate w.directory w.authentication (v.moments 0) r v.request.credentials

/-- The first operation of a batch that fails is number `k`. -/
structure Stops (w : World) (v : Visit) (start : Session) (l : List Operation) (k : Nat)
    (sessions : Nat → Session) (err : OperationError) : Prop where
  passes : ∃ answers, w.engine.Passes v.batchMoments start l k sessions answers
  fails : ∃ o, l[k]? = some o ∧ w.engine.invoke (v.batchMoments k) (sessions k) o = .error err

section
variable {w : World} {r r' : Registry} {v : Visit} {start : Session} {l : List Operation}
variable {k : Nat} {sessions : Nat → Session} {answers : List String} {err : OperationError}
variable {a : Account} {e : AuthenticationError} {x : Response × Registry}

/-- The courses that a posted batch can take, with the answer and the tokens that each leads to. -/
inductive Course (w : World) (r : Registry) (v : Visit) : Response × Registry → Prop where
  | tooLong (h : longestBatch < v.request.body.length) :
      Course w r v (Refusal.badRequest.response, r)
  | refused {e : AuthenticationError} {r' : Registry}
      (hlength : v.request.body.length ≤ longestBatch) (h : w.admission r v = (.error e, r')) :
      Course w r v (Refusal.unauthorized.response, r')
  | malformed {a : Account} {r' : Registry} (hlength : v.request.body.length ≤ longestBatch)
      (haccount : w.admission r v = (.ok a, r')) (h : Batch.read? v.request.body = none) :
      Course w r v (Refusal.badRequest.response, r')
  | forbidden {start : Session} {l : List Operation} {k : Nat} {sessions : Nat → Session}
      {principal api : String} (hopens : w.Opens r v start l)
      (h : w.Stops v start l k sessions (.forbidden principal api)) :
      Course w r v (Refusal.forbidden.response, (sessions k).registry)
  | failed {start : Session} {l : List Operation} {k : Nat} {sessions : Nat → Session}
      {err : OperationError} (hopens : w.Opens r v start l)
      (h : w.Stops v start l k sessions err)
      (hother : ∀ principal api, err ≠ .forbidden principal api) :
      Course w r v (Refusal.badRequest.response, (sessions k).registry)
  | passed {start : Session} {l : List Operation} {sessions : Nat → Session}
      {answers : List String} (hopens : w.Opens r v start l)
      (h : w.engine.Passes v.batchMoments start l l.length sessions answers) :
      Course w r v (.json (Batch.encodeStrings answers), (sessions l.length).registry)

/-! ### Every request takes one course -/

theorem respond_of_length_gt (hposts : Posts v.request)
    (h : longestBatch < v.request.body.length) :
    w.respond v.files v.moments r v.request = (Refusal.badRequest.response, r) := by
  unfold respond
  simp only [hposts.route, hposts.method, if_true, answerBatch_of_length_gt h]

theorem respond_of_refused (hposts : Posts v.request)
    (hlength : v.request.body.length ≤ longestBatch) (h : w.admission r v = (.error e, r')) :
    w.respond v.files v.moments r v.request = (Refusal.unauthorized.response, r') := by
  unfold respond
  simp only [hposts.route, hposts.method, if_true, answerBatch, if_neg (Nat.not_lt.mpr hlength), h]

theorem respond_of_malformed (hposts : Posts v.request)
    (hlength : v.request.body.length ≤ longestBatch) (haccount : w.admission r v = (.ok a, r'))
    (h : Batch.read? v.request.body = none) :
    w.respond v.files v.moments r v.request = (Refusal.badRequest.response, r') := by
  unfold respond
  simp only [hposts.route, hposts.method, if_true, answerBatch, if_neg (Nat.not_lt.mpr hlength),
    haccount, Engine.runText, h]
  rfl

theorem Opens.respond_of_stops (hopens : w.Opens r v start l)
    (h : w.Stops v start l k sessions err) :
    w.respond v.files v.moments r v.request =
      ((Refusal.ofOperation err).response, (sessions k).registry) := by
  obtain ⟨⟨answers, hpasses⟩, o, ho, hfails⟩ := h
  have hrun : w.engine.run v.batchMoments start l = (.error err, sessions k) :=
    Engine.run_eq_error_iff.mpr ⟨k, sessions, answers, o, hpasses, rfl, ho, hfails⟩
  rw [hopens.respond_eq, hrun]

theorem Opens.respond_of_passes (hopens : w.Opens r v start l)
    (h : w.engine.Passes v.batchMoments start l l.length sessions answers) :
    w.respond v.files v.moments r v.request =
      (.json (Batch.encodeStrings answers), (sessions l.length).registry) := by
  have hrun : w.engine.run v.batchMoments start l = (.ok answers, sessions l.length) :=
    Engine.run_eq_ok_iff.mpr ⟨sessions, h, rfl⟩
  rw [hopens.respond_eq, hrun]

theorem Course.respond_eq (hposts : Posts v.request) (h : w.Course r v x) :
    w.respond v.files v.moments r v.request = x := by
  cases h with
  | tooLong h => exact respond_of_length_gt hposts h
  | refused hlength h => exact respond_of_refused hposts hlength h
  | malformed hlength haccount h => exact respond_of_malformed hposts hlength haccount h
  | forbidden hopens h => exact hopens.respond_of_stops h
  | failed hopens h hother =>
      rcases Refusal.ofOperation_cases _ with ⟨⟨principal, api, heq⟩, -⟩ | ⟨-, hbad⟩
      · exact absurd heq (hother principal api)
      · rw [hopens.respond_of_stops h, hbad]
  | passed hopens h => exact hopens.respond_of_passes h

theorem exists_course (hposts : Posts v.request) : ∃ x, w.Course r v x := by
  by_cases hlong : longestBatch < v.request.body.length
  · exact ⟨_, .tooLong hlong⟩
  have hlength := Nat.not_lt.mp hlong
  cases haccount : w.admission r v with
  | mk result r' =>
      cases result with
      | error e => exact ⟨_, .refused hlength haccount⟩
      | ok a =>
          cases hbatch : Batch.read? v.request.body with
          | none => exact ⟨_, .malformed hlength haccount hbatch⟩
          | some l =>
              have hopens : w.Opens r v ⟨a, r'⟩ l :=
                ⟨hposts.route, hposts.method, hlength, haccount, hbatch⟩
              cases hrun : w.engine.run v.batchMoments ⟨a, r'⟩ l with
              | mk result t =>
                  cases result with
                  | ok answers =>
                      obtain ⟨sessions, hpasses, -⟩ := Engine.run_eq_ok_iff.mp hrun
                      exact ⟨_, .passed hopens hpasses⟩
                  | error err =>
                      obtain ⟨k, sessions, answers, o, hpasses, rfl, ho, hfails⟩ :=
                        Engine.run_eq_error_iff.mp hrun
                      have hstops : w.Stops v ⟨a, r'⟩ l k sessions err :=
                        ⟨⟨answers, hpasses⟩, o, ho, hfails⟩
                      rcases Refusal.ofOperation_cases err with ⟨⟨principal, api, rfl⟩, -⟩ | h
                      · exact ⟨_, .forbidden hopens hstops⟩
                      · exact ⟨_, .failed hopens hstops h.1⟩

/-- A posted batch takes the course that its answer comes from, and no other one. -/
theorem course_iff (hposts : Posts v.request) :
    w.Course r v x ↔ w.respond v.files v.moments r v.request = x := by
  refine ⟨Course.respond_eq hposts, ?_⟩
  rintro rfl
  obtain ⟨x, hx⟩ := exists_course (w := w) (r := r) hposts
  rwa [hx.respond_eq hposts]

/-! ### What a status says -/

/-- A request is bad: it is too long, or it is accepted and is no batch or one that stops for
another reason than the lack of a privilege. -/
def IsBad (w : World) (r : Registry) (v : Visit) : Prop :=
  longestBatch < v.request.body.length ∨
  (v.request.body.length ≤ longestBatch ∧ (∃ a, (w.admission r v).1 = .ok a) ∧
    Batch.read? v.request.body = none) ∨
  ∃ start l k sessions err, w.Opens r v start l ∧ w.Stops v start l k sessions err ∧
    ∀ principal api, err ≠ .forbidden principal api

theorem IsBad.exists_course (h : w.IsBad r v) :
    ∃ t, w.Course r v (Refusal.badRequest.response, t) := by
  rcases h with hlong | ⟨hlength, ⟨a, ha⟩, hbatch⟩ | ⟨start, l, k, sessions, err, hopens, hstops, h⟩
  · exact ⟨r, .tooLong hlong⟩
  · exact ⟨(w.admission r v).2, .malformed hlength (Prod.ext ha rfl) hbatch⟩
  · exact ⟨(sessions k).registry, .failed hopens hstops h⟩

/-- What is known of a request by the status of the answer to it. -/
def Explains (w : World) (r : Registry) (v : Visit) : Nat → Prop
  | 401 => v.request.body.length ≤ longestBatch ∧ ∃ e, (w.admission r v).1 = .error e
  | 403 => ∃ start l k sessions principal api, w.Opens r v start l ∧
      w.Stops v start l k sessions (.forbidden principal api)
  | 400 => w.IsBad r v
  | 200 => ∃ start l sessions answers, w.Opens r v start l ∧
      w.engine.Passes v.batchMoments start l l.length sessions answers
  | _ => False

theorem Course.explains (h : w.Course r v x) : w.Explains r v x.1.status := by
  cases h with
  | tooLong h => exact .inl h
  | refused hlength h => exact ⟨hlength, _, by rw [h]⟩
  | malformed hlength haccount h => exact .inr (.inl ⟨hlength, ⟨_, by rw [haccount]⟩, h⟩)
  | forbidden hopens h => exact ⟨_, _, _, _, _, _, hopens, h⟩
  | failed hopens h hother => exact .inr (.inr ⟨_, _, _, _, _, hopens, h, hother⟩)
  | passed hopens h => exact ⟨_, _, _, _, hopens, h⟩

theorem Explains.exists_course {status : Nat} (h : w.Explains r v status) :
    ∃ x, w.Course r v x ∧ x.1.status = status := by
  unfold Explains at h
  split at h
  · obtain ⟨hlength, e, he⟩ := h
    exact ⟨_, .refused hlength (Prod.ext he rfl), rfl⟩
  · obtain ⟨start, l, k, sessions, principal, api, hopens, hstops⟩ := h
    exact ⟨_, .forbidden hopens hstops, rfl⟩
  · obtain ⟨t, ht⟩ := h.exists_course
    exact ⟨_, ht, rfl⟩
  · obtain ⟨start, l, sessions, answers, hopens, hpasses⟩ := h
    exact ⟨_, .passed hopens hpasses, rfl⟩
  · exact h.elim

theorem status_eq_iff (hposts : Posts v.request) (status : Nat) :
    (w.respond v.files v.moments r v.request).1.status = status ↔ w.Explains r v status := by
  constructor
  · rintro rfl
    exact ((course_iff hposts).mpr rfl).explains
  · intro h
    obtain ⟨x, hx, rfl⟩ := h.exists_course
    rw [hx.respond_eq hposts]

theorem Course.eq_response (h : w.Course r v x) (hstatus : x.1.status ≠ 200) :
    x.1 = (match x.1.status with
      | 401 => Refusal.unauthorized.response
      | 403 => Refusal.forbidden.response
      | _ => Refusal.badRequest.response) := by
  cases h with
  | tooLong _ => rfl
  | refused _ _ => rfl
  | malformed _ _ _ => rfl
  | forbidden _ _ => rfl
  | failed _ _ _ => rfl
  | passed _ _ => exact absurd rfl hstatus

theorem Opens.unique {start' : Session} {l' : List Operation} (h : w.Opens r v start l)
    (h' : w.Opens r v start' l') : l = l' := by
  have hbatch := h.batch
  rw [h'.batch] at hbatch
  exact (Option.some.inj hbatch).symm

/-- A batch that passed is answered with one string for each of its entries. -/
theorem Course.readStrings?_of_status (h : w.Course r v x) (hstatus : x.1.status = 200)
    (hopens : w.Opens r v start l) : x.1.contentType = some "application/json" ∧
      ∃ answers, Batch.readStrings? x.1.body = some answers ∧ answers.length = l.length := by
  cases h with
  | tooLong _ => cases hstatus
  | refused _ _ => cases hstatus
  | malformed _ _ _ => cases hstatus
  | forbidden _ _ => cases hstatus
  | failed _ _ _ => cases hstatus
  | @passed _ _ _ answers hopens' hpasses =>
      obtain rfl := hopens.unique hopens'
      exact ⟨rfl, answers, Batch.readStrings?_encodeStrings answers, hpasses.length_answers⟩

end

/-- What the answer to a posted batch tells its sender, and what was done to the tokens for it. -/
structure Discloses (w : World) (r : Registry) (v : Visit) (answer : Response)
    (tokens : Registry) : Prop where
  /-- A batch that is too long is refused, and no token that it shows is claimed. -/
  tooLong : longestBatch < v.request.body.length → answer.status = 400 ∧ tokens = r
  /-- Of the others, those are told so whose authentication failed, for whatever reason. -/
  unauthorized : answer.status = 401 ↔
    v.request.body.length ≤ longestBatch ∧ ∃ e, (w.admission r v).1 = .error e
  /-- Then no operation was run: the tokens are those that the authentication left, and any other
  grants would have led to the same. -/
  unrun : answer.status = 401 → tokens = (w.admission r v).2 ∧
    ∀ grants, World.respond { w with engine := { w.engine with grants := grants } } v.files
      v.moments r v.request = (answer, tokens)
  /-- The first operation that failed was forbidden to the account that acted then. -/
  forbidden : answer.status = 403 ↔ ∃ start l k sessions principal api, w.Opens r v start l ∧
    w.Stops v start l k sessions (.forbidden principal api)
  /-- The request was too long, or no batch, or its first operation that failed did so for another
  reason. -/
  badRequest : answer.status = 400 ↔ w.IsBad r v
  /-- Every operation succeeded. -/
  ok : answer.status = 200 ↔ ∃ start l sessions answers, w.Opens r v start l ∧
    w.engine.Passes v.batchMoments start l l.length sessions answers
  /-- Then the answer is a list of as many strings as the batch has entries. -/
  answers : answer.status = 200 → ∀ start l, w.Opens r v start l →
    answer.contentType = some "application/json" ∧
      ∃ answers, Batch.readStrings? answer.body = some answers ∧ answers.length = l.length
  /-- There is no other status. -/
  total : answer.status ∈ [200, 400, 401, 403]
  /-- Whoever is refused is told the status and nothing else: any other request, to any other
  server, that is refused with this status gets the same answer. -/
  uniform : answer.status ≠ 200 → ∀ (w' : World) (r' : Registry) (v' : Visit), Posts v'.request →
    (w'.respond v'.files v'.moments r' v'.request).1.status = answer.status →
    (w'.respond v'.files v'.moments r' v'.request).1 = answer

/-- **The answer to a batch follows from the first check that fails**, for every server, all tokens,
every course of the clock, and all credentials. -/
theorem discloses_of_posts (w : World) (r : Registry) {v : Visit} (hposts : Posts v.request) :
    w.Discloses r v (w.respond v.files v.moments r v.request).1
      (w.respond v.files v.moments r v.request).2 := by
  have hcourse : w.Course r v (w.respond v.files v.moments r v.request) :=
    (course_iff hposts).mpr rfl
  refine ⟨?_, status_eq_iff hposts 401, ?_, status_eq_iff hposts 403, status_eq_iff hposts 400,
    status_eq_iff hposts 200, ?_, ?_, ?_⟩
  · intro hlong
    rw [respond_of_length_gt hposts hlong]
    exact ⟨rfl, rfl⟩
  · intro hstatus
    obtain ⟨hlength, e, he⟩ := (status_eq_iff hposts 401).mp hstatus
    have hrefused : w.admission r v = (.error e, (w.admission r v).2) := Prod.ext he rfl
    refine ⟨by rw [respond_of_refused hposts hlength hrefused], ?_⟩
    refine respond_eq_of_not_opens ?_
    intro start l hopens
    have haccount : w.admission r v = (.ok start.acting, start.registry) := hopens.account
    rw [haccount] at he
    cases he
  · intro hstatus start l hopens
    exact hcourse.readStrings?_of_status hstatus hopens
  · have hexplains := hcourse.explains
    unfold Explains at hexplains
    split at hexplains
    · next h => simp [h]
    · next h => simp [h]
    · next h => simp [h]
    · next h => simp [h]
    · exact hexplains.elim
  · intro hstatus w' r' v' hposts' heq
    have hcourse' : w'.Course r' v' (w'.respond v'.files v'.moments r' v'.request) :=
      (course_iff hposts').mpr rfl
    rw [hcourse'.eq_response (by rw [heq]; exact hstatus), heq]
    exact (hcourse.eq_response hstatus).symm

theorem discloses_of_crewVisit : Posts crewVisit.request ∧
    crew.Discloses (crewTokens false) crewVisit
      (crew.respond crewVisit.files crewVisit.moments (crewTokens false) crewVisit.request).1
      (crew.respond crewVisit.files crewVisit.moments (crewTokens false) crewVisit.request).2 := by
  have hposts : Posts crewVisit.request := ⟨by decide +kernel, rfl⟩
  exact ⟨hposts, discloses_of_posts crew (crewTokens false) hposts⟩

end World
end CredentialServer

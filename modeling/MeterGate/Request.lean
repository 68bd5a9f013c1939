import MeterGate.Registration

set_option autoImplicit false

/-! # Requests

What can be asked of a filter, as data: to register a meter, or to run one operation alone. A list
of requests has a *course*: the response to each with the world after it. A panic is a response like
the others, and the requests after it go on in the world that it left. -/

namespace MeterGate

/-- Something to ask of a filter. -/
inductive Request where
  | register (id : MeterId) (config : DistributionConfig)
  | map (id : MeterId)
  | accept (id : MeterId)
  | configure (id : MeterId) (config : DistributionConfig)
deriving DecidableEq, Repr

/-- What a request gives. -/
inductive Response where
  | registration (r : Registration)
  | id (id : MeterId)
  | reply (r : Reply)
  | config (c : DistributionConfig)
  | panic (p : Panic)
deriving DecidableEq, Repr

namespace Filter

variable {σ : Type}

/-- Ask a filter. -/
def ask (f : Filter σ) : Request → Eval σ Response
  | .register id config => return .registration (← f.register id config)
  | .map id => return .id (← f.map id)
  | .accept id => return .reply (← f.accept id)
  | .configure id config => return .config (← f.configure id config)

/-- The response to a request, a panic included, and the world after it. -/
def respond (f : Filter σ) (request : Request) (w : World σ) : Response × World σ :=
  match f.ask request w with
  | .ok response w => (response, w)
  | .error p w => (.panic p, w)

/-- The responses to requests made one after another, each with the world after it. -/
def course (f : Filter σ) : List Request → World σ → List (Response × World σ)
  | [], _ => []
  | request :: rest, w =>
      let answered := f.respond request w
      answered :: course f rest answered.2

theorem length_course (f : Filter σ) (requests : List Request) (w : World σ) :
    (f.course requests w).length = requests.length := by
  induction requests generalizing w with
  | nil => rfl
  | cons request rest ih => simp [course, ih]

end Filter

end MeterGate

import Mempulse.Library.Runs

/-!
# A bounded mailbox in front of a server

Callers post messages to a bounded mailbox. One server takes them out in order, handles them one at
a time and delivers a reply to each. Callers, the taking and the handling interleave in any order,
and the server can go away, which drops what is still waiting. Whatever the order, the server has
handled a prefix of the accepted messages in the order in which they were accepted, its state is
the one that handling that prefix in sequence reaches, and every delivered reply is the reply of
that sequence (`Mailbox.Sequential`).
-/

set_option autoImplicit false

namespace Mempulse.Library

universe u v w

variable {σ : Type u} {μ : Type v} {ρ : Type w}

namespace Mailbox

/-! ## Serving in sequence -/

/-- The state after messages handled one after another. -/
def stateAfter (serve : σ → μ → ρ × σ) (initial : σ) (messages : List μ) : σ :=
  messages.foldl (fun state message => (serve state message).2) initial

/-- The replies to messages handled one after another. -/
def repliesTo (serve : σ → μ → ρ × σ) : σ → List μ → List ρ
  | _, [] => []
  | state, message :: rest =>
    (serve state message).1 :: repliesTo serve (serve state message).2 rest

section Sequences

variable (serve : σ → μ → ρ × σ) (initial : σ)

theorem stateAfter_append (earlier later : List μ) :
    stateAfter serve initial (earlier ++ later) =
      stateAfter serve (stateAfter serve initial earlier) later :=
  List.foldl_append

theorem repliesTo_append (earlier later : List μ) :
    repliesTo serve initial (earlier ++ later) =
      repliesTo serve initial earlier ++
        repliesTo serve (stateAfter serve initial earlier) later := by
  induction earlier generalizing initial with
  | nil => rfl
  | cons message rest ih => exact congrArg _ (ih (serve initial message).2)

/-- The reply to a message is computed in the state that the messages before it reach. -/
theorem getElem?_repliesTo (messages : List μ) (position : Nat) :
    (repliesTo serve initial messages)[position]? =
      (messages[position]?).map fun message =>
        (serve (stateAfter serve initial (messages.take position)) message).1 := by
  induction messages generalizing initial position with
  | nil => rfl
  | cons message rest ih =>
      cases position with
      | zero => rfl
      | succ position => exact ih (serve initial message).2 position

end Sequences

/-! ## The mailbox -/

/-- A message with the number of the post that brought it. -/
structure Posted (μ : Type v) where
  number : Nat
  message : μ
  deriving DecidableEq

/-- A message that was handled, with the reply delivered to its sender. -/
structure Served (μ : Type v) (ρ : Type w) extends Posted μ where
  reply : ρ
  deriving DecidableEq

end Mailbox

/-- A mailbox and its server. `posts` counts the posts so far, `accepted` lists the posts that got
into the mailbox, and `dropped` those lost when the server went away; no move reads the two lists. -/
structure Mailbox (σ : Type u) (μ : Type v) (ρ : Type w) where
  state : σ
  waiting : List (Mailbox.Posted μ) := []
  inHand : Option (Mailbox.Posted μ) := none
  closed : Bool := false
  served : List (Mailbox.Served μ ρ) := []
  posts : Nat := 0
  accepted : List (Mailbox.Posted μ) := []
  dropped : List (Mailbox.Posted μ) := []

namespace Mailbox

/-- What a mailbox answers to a post. -/
inductive PostOutcome where
  | accepted
  | full
  | closed
  deriving DecidableEq

/-- The answer to a post at this moment. -/
def postOutcome (capacity : Nat) (box : Mailbox σ μ ρ) : PostOutcome :=
  if box.closed then .closed else if box.waiting.length < capacity then .accepted else .full

/-- A post: the message joins the queue when there is room. -/
def post (capacity : Nat) (box : Mailbox σ μ ρ) (message : μ) : Mailbox σ μ ρ :=
  match box.postOutcome capacity with
  | .accepted =>
    { box with
      waiting := box.waiting ++ [⟨box.posts, message⟩]
      accepted := box.accepted ++ [⟨box.posts, message⟩]
      posts := box.posts + 1 }
  | .full | .closed => { box with posts := box.posts + 1 }

/-- The server takes the oldest message out of the queue, which frees its place. -/
def take (box : Mailbox σ μ ρ) : Option (Mailbox σ μ ρ) :=
  match box.inHand, box.waiting with
  | none, oldest :: rest => some { box with inHand := some oldest, waiting := rest }
  | _, _ => none

/-- The server handles the message in hand and delivers its reply. -/
def handle (serve : σ → μ → ρ × σ) (box : Mailbox σ μ ρ) : Option (Mailbox σ μ ρ) :=
  box.inHand.map fun posted =>
    { box with
      inHand := none
      state := (serve box.state posted.message).2
      served := box.served ++ [{ posted with reply := (serve box.state posted.message).1 }] }

/-- The server goes away between two messages, and what is waiting is dropped. -/
def close (box : Mailbox σ μ ρ) : Option (Mailbox σ μ ρ) :=
  match box.inHand with
  | none =>
    some { box with closed := true, waiting := [], dropped := box.dropped ++ box.waiting }
  | some _ => none

/-- The moves of the callers and of the server. -/
inductive Move (μ : Type v) where
  | post (message : μ)
  | take
  | handle
  | close
  deriving DecidableEq

/-- One move, when it is possible. -/
def move (serve : σ → μ → ρ × σ) (capacity : Nat) (box : Mailbox σ μ ρ) :
    Move μ → Option (Mailbox σ μ ρ)
  | .post message => some (box.post capacity message)
  | .take => box.take
  | .handle => box.handle serve
  | .close => box.close

/-! ## Serving is sequential -/

/-- What holds of a mailbox that started empty in front of a server in its initial state. -/
structure Sequential (serve : σ → μ → ρ × σ) (capacity : Nat) (initial : σ)
    (box : Mailbox σ μ ρ) : Prop where
  /-- Served, in hand, waiting, dropped: in the order of acceptance. -/
  order : box.accepted =
    box.served.map Served.toPosted ++ box.inHand.toList ++ box.waiting ++ box.dropped
  kept : box.closed = false → box.dropped = []
  emptied : box.closed = true → box.waiting = [] ∧ box.inHand = none
  state : box.state = stateAfter serve initial (box.served.map (·.message))
  replies : box.served.map (·.reply) = repliesTo serve initial (box.served.map (·.message))
  increasing : box.accepted.Pairwise fun earlier later => earlier.number < later.number
  numbered : ∀ posted ∈ box.accepted, posted.number < box.posts
  bounded : box.waiting.length ≤ capacity

section Moves

variable {serve : σ → μ → ρ × σ} {capacity : Nat} {initial : σ} {box next : Mailbox σ μ ρ}

theorem Sequential.start (serve : σ → μ → ρ × σ) (capacity : Nat) (initial : σ) :
    Sequential serve capacity initial ({ state := initial } : Mailbox σ μ ρ) where
  order := rfl
  kept _ := rfl
  emptied closed := nomatch closed
  state := rfl
  replies := rfl
  increasing := .nil
  numbered _ held := nomatch held
  bounded := Nat.zero_le _

theorem post_of_accepted {message : μ} (accepted : box.postOutcome capacity = .accepted) :
    box.post capacity message = { box with
      waiting := box.waiting ++ [⟨box.posts, message⟩]
      accepted := box.accepted ++ [⟨box.posts, message⟩]
      posts := box.posts + 1 } := by
  rw [post, accepted]

theorem post_of_not_accepted {message : μ} (refused : box.postOutcome capacity ≠ .accepted) :
    box.post capacity message = { box with posts := box.posts + 1 } := by
  rw [post]
  cases outcome : box.postOutcome capacity with
  | accepted => exact absurd outcome refused
  | full => rfl
  | closed => rfl

theorem take_eq_some (taken : box.take = some next) :
    ∃ oldest rest, box.inHand = none ∧ box.waiting = oldest :: rest ∧
      next = { box with inHand := some oldest, waiting := rest } := by
  unfold take at taken
  split at taken
  case h_1 oldest rest free queue => exact ⟨oldest, rest, free, queue, (Option.some.inj taken).symm⟩
  case h_2 => cases taken

theorem handle_eq_some (handled : box.handle serve = some next) :
    ∃ posted, box.inHand = some posted ∧
      next = { box with
        inHand := none
        state := (serve box.state posted.message).2
        served := box.served ++ [{ posted with reply := (serve box.state posted.message).1 }] } := by
  obtain ⟨posted, held, result⟩ := Option.map_eq_some_iff.mp handled
  exact ⟨posted, held, result.symm⟩

theorem close_eq_some (left : box.close = some next) :
    box.inHand = none ∧
      next = { box with
        closed := true, waiting := [], dropped := box.dropped ++ box.waiting } := by
  unfold close at left
  split at left
  case h_1 free => exact ⟨free, (Option.some.inj left).symm⟩
  case h_2 => cases left

theorem isOpen_of_accepted (accepted : box.postOutcome capacity = .accepted) :
    box.closed = false ∧ box.waiting.length < capacity := by
  unfold postOutcome at accepted
  split at accepted
  case isTrue => cases accepted
  case isFalse isOpen =>
    split at accepted
    case isTrue room => exact ⟨Bool.eq_false_of_not_eq_true isOpen, room⟩
    case isFalse => cases accepted

theorem Sequential.post (sequential : Sequential serve capacity initial box) (message : μ) :
    Sequential serve capacity initial (box.post capacity message) := by
  by_cases accepted : box.postOutcome capacity = .accepted
  · obtain ⟨isOpen, room⟩ := isOpen_of_accepted accepted
    rw [post_of_accepted accepted]
    refine { sequential with order := ?_, emptied := ?_, increasing := ?_, numbered := ?_, bounded := ?_ }
    · have order := sequential.order
      rw [sequential.kept isOpen, List.append_nil] at order
      simp only [order, sequential.kept isOpen, List.append_nil, List.append_assoc]
    · exact fun closed => absurd (isOpen.symm.trans closed) Bool.false_ne_true
    · refine List.pairwise_append.mpr ⟨sequential.increasing, List.pairwise_singleton _ _, ?_⟩
      rintro earlier held later added
      cases List.mem_singleton.mp added
      exact sequential.numbered earlier held
    · intro posted held
      rcases List.mem_append.mp held with old | added
      · exact Nat.lt_succ_of_lt (sequential.numbered posted old)
      · cases List.mem_singleton.mp added
        exact Nat.lt_succ_self _
    · rw [List.length_append]
      exact room
  · rw [post_of_not_accepted accepted]
    exact { sequential with
      numbered := fun posted held => Nat.lt_succ_of_lt (sequential.numbered posted held) }

theorem Sequential.take (sequential : Sequential serve capacity initial box)
    (taken : box.take = some next) : Sequential serve capacity initial next := by
  obtain ⟨oldest, rest, free, queue, rfl⟩ := take_eq_some taken
  refine { sequential with order := ?_, emptied := ?_, bounded := ?_ }
  · rw [sequential.order, free, queue]
    simp
  · exact fun closed => nomatch queue.symm.trans (sequential.emptied closed).1
  · have bounded := sequential.bounded
    rw [queue] at bounded
    exact Nat.le_of_succ_le bounded

theorem Sequential.handle (sequential : Sequential serve capacity initial box)
    (handled : box.handle serve = some next) : Sequential serve capacity initial next := by
  obtain ⟨posted, held, rfl⟩ := handle_eq_some handled
  refine { sequential with order := ?_, emptied := ?_, state := ?_, replies := ?_ }
  · rw [sequential.order, held]
    simp
  · exact fun closed => ⟨(sequential.emptied closed).1, rfl⟩
  · rw [List.map_append, stateAfter_append, ← sequential.state]
    rfl
  · rw [List.map_append, List.map_append, repliesTo_append, ← sequential.state, sequential.replies]
    rfl

theorem Sequential.close (sequential : Sequential serve capacity initial box)
    (left : box.close = some next) : Sequential serve capacity initial next := by
  obtain ⟨free, rfl⟩ := close_eq_some left
  refine { sequential with order := ?_, kept := ?_, emptied := ?_, bounded := Nat.zero_le _ }
  · cases closed : box.closed with
    | true => rw [sequential.order, (sequential.emptied closed).1]; simp
    | false => rw [sequential.order, sequential.kept closed]; simp
  · exact fun isOpen => nomatch isOpen
  · exact fun _ => ⟨rfl, free⟩

theorem Sequential.move {label : Move μ} (sequential : Sequential serve capacity initial box)
    (moved : box.move serve capacity label = some next) : Sequential serve capacity initial next := by
  cases label with
  | post message => exact Option.some.inj moved ▸ sequential.post message
  | take => exact sequential.take moved
  | handle => exact sequential.handle moved
  | close => exact sequential.close moved

/-- A move never takes back what was served, and a post that is yet to come gets a later number. -/
theorem move_extends {label : Move μ} (moved : box.move serve capacity label = some next) :
    box.served <+: next.served ∧ box.accepted <+: next.accepted ∧ box.posts ≤ next.posts := by
  cases label with
  | post message =>
      cases moved
      by_cases accepted : box.postOutcome capacity = .accepted
      · rw [post_of_accepted accepted]
        exact ⟨List.prefix_rfl, List.prefix_append _ _, Nat.le_succ _⟩
      · rw [post_of_not_accepted accepted]
        exact ⟨List.prefix_rfl, List.prefix_rfl, Nat.le_succ _⟩
  | take =>
      obtain ⟨oldest, rest, -, -, rfl⟩ := take_eq_some moved
      exact ⟨List.prefix_rfl, List.prefix_rfl, Nat.le_refl _⟩
  | handle =>
      obtain ⟨posted, -, rfl⟩ := handle_eq_some moved
      exact ⟨List.prefix_append _ _, List.prefix_rfl, Nat.le_refl _⟩
  | close =>
      obtain ⟨-, rfl⟩ := close_eq_some moved
      exact ⟨List.prefix_rfl, List.prefix_rfl, Nat.le_refl _⟩

/-- A move serves one message at most. -/
theorem length_served_move {label : Move μ} (moved : box.move serve capacity label = some next) :
    next.served.length ≤ box.served.length + 1 := by
  cases label with
  | post message =>
      cases moved
      by_cases accepted : box.postOutcome capacity = .accepted
      · rw [post_of_accepted accepted]
        exact Nat.le_succ _
      · rw [post_of_not_accepted accepted]
        exact Nat.le_succ _
  | take =>
      obtain ⟨oldest, rest, -, -, rfl⟩ := take_eq_some moved
      exact Nat.le_succ _
  | handle =>
      obtain ⟨posted, -, rfl⟩ := handle_eq_some moved
      exact List.length_append.le
  | close =>
      obtain ⟨-, rfl⟩ := close_eq_some moved
      exact Nat.le_succ _

/-- Only a post brings a message. -/
theorem move_accepted {label : Move μ} (notPost : ∀ message, label ≠ .post message)
    (moved : box.move serve capacity label = some next) :
    next.accepted = box.accepted ∧ next.posts = box.posts := by
  cases label with
  | post message => exact absurd rfl (notPost message)
  | take =>
      obtain ⟨oldest, rest, -, -, rfl⟩ := take_eq_some moved
      exact ⟨rfl, rfl⟩
  | handle =>
      obtain ⟨posted, -, rfl⟩ := handle_eq_some moved
      exact ⟨rfl, rfl⟩
  | close =>
      obtain ⟨-, rfl⟩ := close_eq_some moved
      exact ⟨rfl, rfl⟩

end Moves

namespace Sequential

variable {serve : σ → μ → ρ × σ} {capacity : Nat} {initial : σ} {box : Mailbox σ μ ρ}

/-- What was served is a prefix of what was accepted. -/
theorem served_prefix (sequential : Sequential serve capacity initial box) :
    box.served.map Served.toPosted <+: box.accepted := by
  rw [sequential.order, List.append_assoc, List.append_assoc]
  exact List.prefix_append _ _

/-- A message accepted before a served one has been served. -/
theorem served_of_earlier (sequential : Sequential serve capacity initial box)
    {posted entry : Posted μ} (served : entry ∈ box.served.map Served.toPosted)
    (accepted : posted ∈ box.accepted) (earlier : posted.number < entry.number) :
    posted ∈ box.served.map Served.toPosted := by
  obtain ⟨rest, whole⟩ := sequential.served_prefix
  have increasing := sequential.increasing
  rw [← whole] at accepted increasing
  rcases List.mem_append.mp accepted with held | later
  · exact held
  · have after := (List.pairwise_append.mp increasing).2.2 entry served posted later
    omega

/-- The reply delivered at a position is the one the messages served before it lead to. -/
theorem reply_eq (sequential : Sequential serve capacity initial box) {position : Nat}
    {served : Served μ ρ} (at_position : box.served[position]? = some served) :
    served.reply =
      (serve (stateAfter serve initial ((box.served.take position).map (·.message)))
        served.message).1 := by
  have replies := congrArg (·[position]?) sequential.replies
  simp only [List.getElem?_map, at_position, getElem?_repliesTo, Option.map_some,
    Option.some.injEq] at replies
  rw [replies, ← List.map_take]

theorem served_increasing (sequential : Sequential serve capacity initial box) :
    box.served.Pairwise fun earlier later => earlier.number < later.number := by
  have increasing := sequential.increasing.sublist sequential.served_prefix.sublist
  rwa [List.pairwise_map] at increasing

/-- Once the server has gone away, nothing more is served. -/
theorem served_of_closed {label : Move μ} {next : Mailbox σ μ ρ}
    (sequential : Sequential serve capacity initial box) (closed : box.closed = true)
    (moved : box.move serve capacity label = some next) :
    next.served = box.served ∧ next.closed = true := by
  cases label with
  | post message =>
      cases moved
      by_cases accepted : box.postOutcome capacity = .accepted
      · rw [post_of_accepted accepted]
        exact ⟨rfl, closed⟩
      · rw [post_of_not_accepted accepted]
        exact ⟨rfl, closed⟩
  | take =>
      obtain ⟨oldest, rest, -, -, rfl⟩ := take_eq_some moved
      exact ⟨rfl, closed⟩
  | handle =>
      obtain ⟨posted, held, -⟩ := handle_eq_some moved
      exact nomatch held.symm.trans (sequential.emptied closed).2
  | close =>
      obtain ⟨-, rfl⟩ := close_eq_some moved
      exact ⟨rfl, rfl⟩

end Sequential

end Mailbox

end Mempulse.Library

import Telefile.Proofs.Remote.Methods
import Telefile.Proofs.Streams.Cutting

/-!
# The calls of a client stay in step with their replies

A client makes one call after the other on one connection, and its peer sends one frame for every
frame it gets. Nothing else says which reply belongs to which call: only that the client takes one
for each that it asked for. Every way a call can fail leaves something else behind: nothing at all
(the request was over the limit and was not sent), nothing but a consumed frame (the reply did not
decode, or was of the wrong shape), or a length that is never read past (the reply was over the
limit).

* `Exchange` — a call with the reply that the peer sent to it and what the client made of it;
* `Conversation` — the exchanges that can take place, however the bytes of the replies come in;
* `InStep` — what a conversation leaves of the client: either all that came has been taken, or a
  length over the limit bars the way;
* `Conversation.settles` — a call does not wait for more than its own reply;
* **`Conversation.in_step`** — a call gives what its own reply says, or fails.
-/

namespace Telefile

/-! ## 1. Exchanges -/

/-- A call: its method, the body of the peer's reply if the request was sent, the bytes that came in
while the client waited, and what the call gave. -/
structure Exchange where
  method : Method
  reply : Option (List UInt8)
  arrived : List UInt8
  result : Except ClientError method.Result

namespace Exchange

/-- The reply is over the client's limit. -/
def Oversized (limit : Nat) (x : Exchange) : Prop :=
  ∃ body, x.reply = some body ∧ limit < body.length

/-- What the call's own reply says: the call is refused where nothing was sent, fails where the
reply is over the limit or does not decode, and unwraps what the reply says where it does. -/
def own (limit : Nat) (x : Exchange) : Except ClientError x.method.Result :=
  match x.reply with
  | none => .error (.transport .bodyTooBig)
  | some body =>
    if limit < body.length then .error (.transport .lengthTooBig)
    else ((Response.decode body).mapError .protocol).bind x.method.call.take

theorem own_eq_ok {limit : Nat} (x : Exchange) {v : x.method.Result} (h : x.own limit = .ok v) :
    ∃ body r, x.reply = some body ∧ Response.decode body = .ok r ∧
      x.method.call.take r = .ok v := by
  unfold own at h
  split at h
  · cases h
  · rename_i body hbody
    split at h
    · cases h
    · cases hdecode : Response.decode body with
      | error e =>
        rw [hdecode] at h
        cases h
      | ok r =>
        rw [hdecode] at h
        exact ⟨body, r, hbody, hdecode, h⟩

end Exchange

/-- The replies that the peer has sent. -/
def repliesIn (es : List Exchange) : List (List UInt8) := es.filterMap Exchange.reply

/-- The bytes that have come in. -/
def heardIn (es : List Exchange) : List UInt8 := es.flatMap Exchange.arrived

/-- A client waits no longer: a frame is there, or a length over the limit has been seen. -/
def Client.Settled (c : Client) : Prop := c.pending ≠ [] ∨ c.incoming = .refused

/-- A call of a client, with the peer's reply to it and the bytes that come in while it waits. -/
def Client.exchange (c : Client) (m : Method) (reply : Option (List UInt8))
    (arrived : List UInt8) : Exchange × Client :=
  let (result, c) := c.perform m.call fun _ => (arrived, false)
  (⟨m, reply, arrived, result⟩, c)

/-- A conversation of a new client with a peer that sends one reply to every request it gets, and
the client after it. What has come in is some of what the peer has sent, and a call waits until
there is something for it to take. -/
inductive Conversation (limit : Nat) : List Exchange → Client → Prop
  | start : Conversation limit [] (Client.connect limit)
  | unsent {es : List Exchange} {c : Client} (h : Conversation limit es c) (m : Method)
      {e : ClientError} (hsend : c.send m.request = .error e) :
      Conversation limit (es ++ [(c.exchange m none []).1]) (c.exchange m none []).2
  | answered {es : List Exchange} {c : Client} (h : Conversation limit es c) (m : Method)
      (reply arrived : List UInt8) {frame : List UInt8} (hsend : c.send m.request = .ok frame)
      (hreply : reply.length ≤ Frame.maxLength)
      (hstream : heardIn es ++ arrived <+: Frame.joined (repliesIn es ++ [reply]))
      (hsettled : (c.hear arrived).Settled) :
      Conversation limit (es ++ [(c.exchange m (some reply) arrived).1])
        (c.exchange m (some reply) arrived).2

/-! ## 2. One call -/

section Call

variable {limit : Nat} {reply arrived : List UInt8}

theorem Client.hear_connect (bytes : List UInt8) :
    (Client.connect limit).hear bytes =
      { Client.connect limit with
        incoming := (FrameState.feed limit .fresh bytes).1
        pending := (FrameState.feed limit .fresh bytes).2 } := rfl

/-- While the reply comes in, a client waits for all of it, or for a length over the limit. -/
theorem Client.hear_reply (hreply : reply.length ≤ Frame.maxLength)
    (hpart : arrived <+: Frame.header reply.length ++ reply)
    (hsettled : ((Client.connect limit).hear arrived).Settled) :
    (limit < reply.length ∧ (Client.connect limit).hear arrived =
        { Client.connect limit with incoming := .refused, pending := [.oversized] }) ∨
      (reply.length ≤ limit ∧ arrived = Frame.header reply.length ++ reply ∧
        (Client.connect limit).hear arrived =
          { Client.connect limit with pending := [.frame reply] }) := by
  rw [Client.hear_connect] at hsettled ⊢
  by_cases hshort : arrived.length < 4
  · -- the length is not there: the client would still wait
    rw [FrameState.feed_short hshort] at hsettled
    rcases hsettled with hpending | hrefused
    · exact absurd rfl hpending
    · cases hrefused
  have hheader : Frame.header reply.length <+: arrived :=
    List.prefix_of_prefix_length_le (List.prefix_append _ _) hpart (Nat.le_of_not_lt hshort)
  obtain ⟨part, rfl⟩ := hheader
  have hpart : part <+: reply := (List.prefix_append_right_inj _).mp hpart
  have hfeed : FrameState.feed limit .fresh (Frame.header reply.length ++ part) =
      ((FrameState.feed limit (FrameState.begin limit reply.length).1 part).1,
        (FrameState.begin limit reply.length).2.toList ++
          (FrameState.feed limit (FrameState.begin limit reply.length).1 part).2) := by
    rw [FrameState.feed_append, FrameState.feed_header, Frame.length_header hreply]
  by_cases hlimit : limit < reply.length
  · have hbegin : FrameState.begin limit reply.length = (.refused, some .oversized) := if_pos hlimit
    rw [hfeed, hbegin, FrameState.feed_refused]
    exact .inl ⟨hlimit, rfl⟩
  have hle := Nat.le_of_not_lt hlimit
  rcases Nat.lt_or_ge part.length reply.length with hlacking | hwhole
  · -- some of the body is not there: the client would still wait
    rw [hfeed, FrameState.begin_of_pos hle (Nat.zero_lt_of_lt hlacking),
      FrameState.feed_lacking part [] hlacking] at hsettled
    rcases hsettled with hpending | hrefused
    · exact absurd rfl hpending
    · cases hrefused
  · obtain rfl : part = reply := hpart.eq_of_length_le hwhole
    rw [FrameState.feed_frame ⟨hle, hreply⟩]
    exact .inr ⟨hle, rfl, rfl⟩

/-- A request over the limit is refused, and the client is as before. -/
theorem Client.exchange_unsent {c : Client} {m : Method} {e : ClientError}
    (hsend : c.send m.request = .error e) :
    c.exchange m none [] = (⟨m, none, [], .error e⟩, c) := by
  have hperform : c.perform m.call (fun _ => ([], false)) = (.error e, c) := by
    unfold Client.perform
    rw [show c.send m.call.request = .error e from hsend]
  unfold Client.exchange
  rw [hperform]

/-- A call that is sent takes what it finds when it has heard enough. -/
theorem Client.exchange_sent {c : Client} {m : Method} {frame : List UInt8}
    (hsend : c.send m.request = .ok frame) :
    c.exchange m (some reply) arrived =
      (⟨m, some reply, arrived, (c.hear arrived).next.1.bind m.call.take⟩,
        (c.hear arrived).next.2) := by
  have hperform : c.perform m.call (fun _ => (arrived, false)) =
      ((c.hear arrived).next.1.bind m.call.take, (c.hear arrived).next.2) := by
    unfold Client.perform
    rw [show c.send m.call.request = .ok frame from hsend]
    rfl
  unfold Client.exchange
  rw [hperform]

/-- What can be sent is sent, and the rest is refused before a byte is. -/
theorem Client.carries_of_send_ok {c : Client} {q : Request} {frame : List UInt8}
    (h : c.send q = .ok frame) : Frame.Carries c.limit q.encode := by
  unfold Client.send Frame.encode at h
  by_cases hcarries : Frame.Carries c.limit q.encode
  · exact hcarries
  · rw [if_neg hcarries] at h
    cases h

theorem Client.send_eq_error {c : Client} {q : Request} {e : ClientError}
    (h : c.send q = .error e) :
    ¬ Frame.Carries c.limit q.encode ∧ e = .transport .bodyTooBig := by
  unfold Client.send Frame.encode at h
  by_cases hcarries : Frame.Carries c.limit q.encode
  · rw [if_pos hcarries] at h
    cases h
  · rw [if_neg hcarries] at h
    cases h
    exact ⟨hcarries, rfl⟩

end Call

/-! ## 3. What a conversation leaves of the client -/

theorem repliesIn_append (es : List Exchange) (x : Exchange) :
    repliesIn (es ++ [x]) = repliesIn es ++ x.reply.toList := by
  unfold repliesIn
  rw [List.filterMap_append]
  cases h : x.reply <;> simp [h]

theorem heardIn_append (es : List Exchange) (x : Exchange) :
    heardIn (es ++ [x]) = heardIn es ++ x.arrived := by
  unfold heardIn
  rw [List.flatMap_append, List.flatMap_singleton]

/-- The client after a conversation. Either every reply has come in whole, has been taken, and was
within the limit; or one was over it, and its length bars the way to all that comes after. -/
inductive InStep (limit : Nat) (es : List Exchange) : Client → Prop
  | even (hheard : heardIn es = Frame.joined (repliesIn es))
      (hwithin : ∀ x ∈ es, ¬ x.Oversized limit) : InStep limit es (Client.connect limit)
  | barred (hheard : heardIn es <+: Frame.joined (repliesIn es))
      (hover : ∃ x ∈ es, x.Oversized limit) :
      InStep limit es { Client.connect limit with incoming := .refused }

/-- What a call does after others: it is sent unless it is over the limit; it gives what its own
reply says if no reply before it was over the limit, and fails otherwise. -/
structure Exchange.Follows (limit : Nat) (before : List Exchange) (x : Exchange) : Prop where
  sent : x.reply = none ↔ ¬ Frame.Carries limit x.method.request.encode
  result_own : (∀ y ∈ before, ¬ y.Oversized limit) → x.result = x.own limit
  result_error : (∃ y ∈ before, y.Oversized limit) → ∃ e, x.result = .error e

namespace InStep

variable {limit : Nat} {es : List Exchange} {c : Client}

theorem limit_eq (h : InStep limit es c) : c.limit = limit := by
  cases h <;> rfl

theorem heard_sent (h : InStep limit es c) : heardIn es <+: Frame.joined (repliesIn es) := by
  cases h with
  | even hheard _ => exact hheard ▸ List.prefix_rfl
  | barred hheard _ => exact hheard

/-- A call that is not sent leaves the client as it is. -/
theorem unsent (h : InStep limit es c) {m : Method} {e : ClientError}
    (hsend : c.send m.request = .error e) :
    (c.exchange m none []).1.Follows limit es ∧
      InStep limit (es ++ [(c.exchange m none []).1]) (c.exchange m none []).2 := by
  obtain ⟨hcarries, rfl⟩ := Client.send_eq_error hsend
  rw [h.limit_eq] at hcarries
  rw [Client.exchange_unsent hsend]
  refine ⟨⟨iff_of_true rfl hcarries, fun _ => rfl, fun _ => ⟨_, rfl⟩⟩, ?_⟩
  have hreplies : ∀ x : Exchange, x.reply = none → repliesIn (es ++ [x]) = repliesIn es := by
    intro x hx
    rw [repliesIn_append, hx]
    exact List.append_nil _
  have hheardIn : ∀ x : Exchange, x.arrived = [] → heardIn (es ++ [x]) = heardIn es := by
    intro x hx
    rw [heardIn_append, hx, List.append_nil]
  cases h with
  | even hheard hwithin =>
    refine .even ?_ ?_
    · rw [hheardIn _ rfl, hreplies _ rfl, hheard]
    · intro x hx
      rcases List.mem_append.mp hx with hx | hx
      · exact hwithin x hx
      · obtain rfl := List.mem_singleton.mp hx
        rintro ⟨body, hbody, -⟩
        cases hbody
  | barred hheard hover =>
    obtain ⟨x, hx, hlimit⟩ := hover
    refine .barred ?_ ⟨x, List.mem_append_left _ hx, hlimit⟩
    rw [hheardIn _ rfl, hreplies _ rfl]
    exact hheard

/-- A call that is sent takes its own reply, or meets a length over the limit. -/
theorem answered (h : InStep limit es c) {m : Method} {frame reply arrived : List UInt8}
    (hsend : c.send m.request = .ok frame) (hreply : reply.length ≤ Frame.maxLength)
    (hstream : heardIn es ++ arrived <+: Frame.joined (repliesIn es ++ [reply]))
    (hsettled : (c.hear arrived).Settled) :
    (c.exchange m (some reply) arrived).1.Follows limit es ∧
      InStep limit (es ++ [(c.exchange m (some reply) arrived).1])
        (c.exchange m (some reply) arrived).2 := by
  have hcarries := Client.carries_of_send_ok hsend
  rw [h.limit_eq] at hcarries
  have hsent : some reply = none ↔ ¬ Frame.Carries limit m.request.encode :=
    iff_of_false (Option.some_ne_none reply) (not_not_intro hcarries)
  rw [Client.exchange_sent hsend]
  cases h with
  | even hheard hwithin =>
    have hnone : ¬ ∃ y ∈ es, y.Oversized limit := by
      rintro ⟨y, hy, hover⟩
      exact hwithin y hy hover
    have hpart : arrived <+: Frame.header reply.length ++ reply := by
      rw [Frame.joined_append, hheard] at hstream
      exact (List.prefix_append_right_inj _).mp hstream
    rcases Client.hear_reply hreply hpart hsettled with ⟨hover, hhear⟩ | ⟨hle, hwhole, hhear⟩
    · rw [hhear]
      refine ⟨⟨hsent, fun _ => ?_, fun hbefore => absurd hbefore hnone⟩, ?_⟩
      · unfold Exchange.own
        dsimp only
        rw [if_pos hover]
        rfl
      · have hlast : ∀ x : Exchange, x ∈ es ++ [x] := fun x =>
          List.mem_append_right es (List.mem_singleton_self x)
        refine .barred ?_ ⟨_, hlast _, reply, rfl, hover⟩
        rw [heardIn_append, repliesIn_append]
        exact hstream
    · rw [hhear]
      refine ⟨⟨hsent, fun _ => ?_, fun hbefore => absurd hbefore hnone⟩, ?_⟩
      · unfold Exchange.own
        dsimp only
        rw [if_neg (Nat.not_lt.mpr hle)]
        rfl
      · refine .even ?_ ?_
        · rw [heardIn_append, repliesIn_append, hheard, hwhole]
          exact (Frame.joined_append _ reply).symm
        · intro x hx
          rcases List.mem_append.mp hx with hx | hx
          · exact hwithin x hx
          · obtain rfl := List.mem_singleton.mp hx
            rintro ⟨body, hbody, hover⟩
            cases hbody
            exact Nat.not_lt.mpr hle hover
  | barred hheard hover =>
    -- whatever comes in, the length over the limit is still the next thing to be read
    have hhear : ({ Client.connect limit with incoming := .refused } : Client).hear arrived =
        { Client.connect limit with incoming := .refused } := by
      unfold Client.hear
      rw [show ({ Client.connect limit with incoming := .refused } : Client).incoming =
        FrameState.refused from rfl, FrameState.feed_refused]
      rfl
    rw [hhear]
    refine ⟨⟨hsent, fun hwithin => ?_, fun _ => ⟨.disconnected, rfl⟩⟩, ?_⟩
    · obtain ⟨y, hy, hyover⟩ := hover
      exact absurd hyover (hwithin y hy)
    · obtain ⟨y, hy, hyover⟩ := hover
      refine .barred ?_ ⟨y, List.mem_append_left _ hy, hyover⟩
      rw [heardIn_append, repliesIn_append]
      exact hstream

end InStep

/-! ## 4. Conversations -/

namespace Conversation

variable {limit : Nat} {es : List Exchange} {c : Client}

theorem inStep (h : Conversation limit es c) : InStep limit es c := by
  induction h with
  | start => exact .even rfl (fun _ hx => absurd hx List.not_mem_nil)
  | unsent _ m hsend ih => exact (ih.unsent hsend).2
  | answered _ m reply arrived hsend hreply hstream hsettled ih =>
    exact (ih.answered hsend hreply hstream hsettled).2

/-- A call of a longer conversation is its last call, or one of those before. -/
theorem follows_of_append {before after : List Exchange} {x y : Exchange}
    (hearlier : ∀ after, es = before ++ x :: after → x.Follows limit before)
    (hlast : y.Follows limit es) (h : es ++ [y] = before ++ x :: after) :
    x.Follows limit before := by
  rcases List.eq_nil_or_concat after with rfl | ⟨after, z, rfl⟩
  · obtain ⟨rfl, hsame⟩ := List.append_inj' h rfl
    cases hsame
    exact hlast
  · rw [List.concat_eq_append, ← List.cons_append, ← List.append_assoc] at h
    exact hearlier after (List.append_inj' h rfl).1

/-- **Every call of a conversation follows those before it.** -/
theorem follows (h : Conversation limit es c) {before : List Exchange} {x : Exchange} :
    ∀ after, es = before ++ x :: after → x.Follows limit before := by
  induction h with
  | start =>
    intro after hx
    exact absurd (congrArg List.length hx) (by simp)
  | unsent h m hsend ih => exact fun _ => follows_of_append ih (h.inStep.unsent hsend).1
  | answered h m reply arrived hsend hreply hstream hsettled ih =>
    exact fun _ => follows_of_append ih (h.inStep.answered hsend hreply hstream hsettled).1

/-- A conversation goes on: once all of the reply to a request has come in, the call is over. -/
theorem settles (h : Conversation limit es c) {reply : List UInt8}
    (hreply : reply.length ≤ Frame.maxLength) :
    ∃ arrived, heardIn es ++ arrived <+: Frame.joined (repliesIn es ++ [reply]) ∧
      (c.hear arrived).Settled := by
  have hcome := h.inStep.heard_sent
  cases h.inStep with
  | even hheard _ =>
    refine ⟨Frame.header reply.length ++ reply, ?_, ?_⟩
    · have hall : heardIn es ++ (Frame.header reply.length ++ reply) =
          Frame.joined (repliesIn es ++ [reply]) := by
        rw [hheard, Frame.joined_append]
      exact hall ▸ List.prefix_rfl
    · rw [Client.hear_connect]
      by_cases hlimit : limit < reply.length
      · have hbegin : FrameState.begin limit reply.length = (.refused, some .oversized) :=
          if_pos hlimit
        rw [FrameState.feed_append, FrameState.feed_header, Frame.length_header hreply, hbegin]
        exact .inl (List.cons_ne_nil _ _)
      · rw [FrameState.feed_frame ⟨Nat.le_of_not_lt hlimit, hreply⟩]
        exact .inl (List.cons_ne_nil _ _)
  | barred _ _ =>
    refine ⟨[], ?_, .inr rfl⟩
    rw [List.append_nil, Frame.joined_append]
    exact hcome.trans (List.prefix_append _ _)

/-- **Calls stay in step.** Whatever a client calls, and whatever its peer replies, of any length
and in whatever pieces: a call is sent unless its request is over the limit. One that succeeds gives
what the reply to its own request says. While no reply has been over the limit, each call does
what its own reply says, however those before it went; from then on each call fails. -/
theorem in_step (h : Conversation limit es c) {before after : List Exchange} {x : Exchange}
    (hx : es = before ++ x :: after) :
    (x.reply = none ↔ ¬ Frame.Carries limit x.method.request.encode) ∧
    (∀ v, x.result = .ok v → ∃ body r, x.reply = some body ∧ Response.decode body = .ok r ∧
      x.method.call.take r = .ok v) ∧
    ((∀ y ∈ before, ¬ y.Oversized limit) → x.result = x.own limit) ∧
    ((∃ y ∈ before, y.Oversized limit) → ∃ e, x.result = .error e) := by
  have hfollows := h.follows after hx
  refine ⟨hfollows.sent, ?_, hfollows.result_own, hfollows.result_error⟩
  intro v hv
  by_cases hover : ∃ y ∈ before, y.Oversized limit
  · obtain ⟨e, he⟩ := hfollows.result_error hover
    rw [he] at hv
    cases hv
  · have hwithin : ∀ y ∈ before, ¬ y.Oversized limit := fun y hy h => hover ⟨y, hy, h⟩
    rw [hfollows.result_own hwithin] at hv
    exact x.own_eq_ok hv

/-- A client that takes frames of at most six bytes: an unlink that is too long to be sent, a reply
that does not decode, one of the wrong shape, one that is right, one that is too long, and one that
would have been right. -/
theorem in_step_failing :
    let close reply arrived result : Exchange := ⟨.close 7, some reply, arrived, result⟩
    let before : List Exchange :=
      [⟨.unlink (some "abcdefgh"), none, [], .error (.transport .bodyTooBig)⟩,
        close [] [0, 0, 0, 0] (.error (.protocol .endOfBody)),
        close [1, 0, 0] [0, 0, 0, 3, 1, 0, 0] (.error (.unexpected "close" (.data 0 [])))]
    let right := close [0, 17] [0, 0, 0, 2, 0, 17] (.ok (-9 : Int))
    let long := close [0, 0, 0, 0, 0, 0, 0] [0, 0, 0, 7] (.error (.transport .lengthTooBig))
    let late := close [0, 0] [0, 0, 0, 0, 0, 0, 0, 0, 0, 0, 2, 0, 0] (.error .disconnected)
    ∃ c, Conversation 6 (before ++ [right, long, late]) c ∧ right.result = right.own 6 ∧
      (∃ body r, right.reply = some body ∧ Response.decode body = .ok r ∧
        right.method.call.take r = .ok (-9 : Int)) ∧
      ∃ e, late.result = .error e := by
  intro close before right long late
  have h0 : Conversation 6 [] (Client.connect 6) := .start
  have h1 := h0.unsent (.unlink (some "abcdefgh")) rfl
  have h2 := h1.answered (.close 7) [] [0, 0, 0, 0] rfl (by decide) (by decide) (.inl (by decide))
  have h3 := h2.answered (.close 7) [1, 0, 0] [0, 0, 0, 3, 1, 0, 0] rfl (by decide) (by decide)
    (.inl (by decide))
  have h4 := h3.answered (.close 7) [0, 17] [0, 0, 0, 2, 0, 17] rfl (by decide) (by decide)
    (.inl (by decide))
  have h5 := h4.answered (.close 7) [0, 0, 0, 0, 0, 0, 0] [0, 0, 0, 7] rfl (by decide) (by decide)
    (.inl (by decide))
  have h6 := h5.answered (.close 7) [0, 0] [0, 0, 0, 0, 0, 0, 0, 0, 0, 0, 2, 0, 0] rfl
    (by decide) (by decide) (.inr (by decide))
  have hshort : ∀ y ∈ before, ¬ y.Oversized 6 := by
    rintro y hy ⟨body, hbody, hlong⟩
    have hlength : ∀ y ∈ before, (y.reply.getD []).length ≤ 6 := by decide
    have hle := hlength y hy
    rw [hbody] at hle
    exact Nat.not_lt.mpr hle hlong
  have hlong : ∃ y ∈ before ++ [right, long], y.Oversized 6 :=
    ⟨long, List.mem_append_right _ (.tail _ (.head _)), _, rfl, by decide⟩
  have hright := in_step h6 (show _ = before ++ right :: [long, late] from rfl)
  have hlate := in_step h6 (show _ = (before ++ [right, long]) ++ late :: [] from rfl)
  exact ⟨_, h6, hright.2.2.1 hshort, hright.2.1 _ rfl, hlate.2.2.2 hlong⟩

end Conversation

end Telefile

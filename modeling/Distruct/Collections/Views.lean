import Distruct.Collections.Writes

/-! # Reads over any Account of the Nodes

    What a read returns, for any account of what the nodes show: a look at a
    node finds some data that the node shows, once the node is as far as the
    consistency of the read asks for. `Viewing` collects what has to be known of
    the account. It follows for every method that reads, and for every message
    that does, that what it returns is found in data that some node has shown:
    for a stale read, the node that it was made on.
-/

namespace Distruct

open LTS (Rely Discipline)
open Postcard (Bytes)

/-! ### Looks -/

/-- `read j` makes one call, which changes nothing, and `P` is what it finds in
    the data of node `j`. -/
inductive LooksAt {α : Type} : (NodeId → NodeProg α) → (StateMachineData → α → Prop) → Prop where
  | call {P : StateMachineData → α → Prop} (o : NodeId → Op) (k : (j : NodeId) → (o j).Resp → α)
      (hlink : ∀ j, link (o j) = Prog.perform (o j))
      (hfinds : ∀ j w r w', World.call w (o j) r w' → P (w.data j) (k j r) ∧ w' = w) :
      LooksAt (fun j => .call (o j) fun r => .pure (k j r)) P

section looks
variable (name : String) (key : Bytes)

theorem looksAt_contains_key :
    LooksAt (fun j => ask (.contains_key j name key)) fun d a => a = d.contains_key name key :=
  .call (fun j => .contains_key j name key) (fun _ r => r) (fun _ => rfl) fun _ _ _ _ h => h

theorem looksAt_get_with_lock :
    LooksAt (fun j => ask (.get_with_lock j name key)) fun d a => a = d.get_with_lock name key :=
  .call (fun j => .get_with_lock j name key) (fun _ r => r) (fun _ => rfl) fun _ _ _ _ h => h

theorem looksAt_get_with_lock_multi :
    LooksAt (fun j => ask (.get_with_lock_multi j name key)) fun d a =>
      Option.Rel HashSet.Lists (d.get_with_lock_multi name key) a :=
  .call (fun j => .get_with_lock_multi j name key) (fun _ r => r) (fun _ => rfl) fun _ _ _ _ h => h

theorem looksAt_map_len :
    LooksAt (fun j => ask (.map_len j name)) fun d a => a = d.map_len name :=
  .call (fun j => .map_len j name) (fun _ r => r) (fun _ => rfl) fun _ _ _ _ h => h

theorem looksAt_len_stale {K V : Type} :
    LooksAt (fun j => (⟨name, j⟩ : DMap K V).len_stale) fun d a => a = (d.map_len name).getD 0 :=
  .call (fun j => .map_len j name) (fun _ r => r.getD 0) (fun _ => rfl)
    fun _ _ _ _ h => ⟨congrArg (·.getD 0) h.1, h.2⟩

end looks

/-! ### Requests that read -/

/-- The consistency of a request that reads. -/
def RequestBody.consistency : RequestBody → Option ReadConsistency
  | .ContainsKey _ _ c => some c
  | .Get _ _ c => some c
  | .GetMulti _ _ c => some c
  | .Len _ c => some c
  | _ => none

/-- The responses to a read that the data `d` justifies. -/
def RequestBody.Observes (body : RequestBody) (d : StateMachineData) (resp : Response) : Prop :=
  match body with
  | .ContainsKey map key _ => resp = .ContainsKey (d.contains_key map key)
  | .Get map key _ => resp = .Get (d.get_with_lock map key)
  | .GetMulti multi_map key _ => ∃ l, Option.Rel HashSet.Lists (d.get_with_lock_multi multi_map key) l ∧
      resp = .GetMulti l
  | .Len map _ => resp = .Len (d.map_len map)
  | _ => False

theorem RequestBody.write_of_consistency {body : RequestBody} {c : ReadConsistency}
    (h : body.consistency = some c) : body.write = none := by
  cases body <;> first | rfl | cases h

/-- Requests that read are handled alike. -/
theorem handle_body_of_consistency {body : RequestBody} {c : ReadConsistency}
    (h : body.consistency = some c) :
    ∃ (α : Type) (read : NodeId → NodeProg α) (P : StateMachineData → α → Prop)
      (respond : α → Response), LooksAt read P ∧ (∀ d a, P d a → body.Observes d (respond a)) ∧
      ∀ j, handle_body j body = consistent_read j c (read j) respond := by
  cases body with
  | ContainsKey map key c' =>
    cases h
    exact ⟨_, _, _, _, looksAt_contains_key map key, fun d a h => h ▸ rfl, fun _ => rfl⟩
  | Get map key c' =>
    cases h
    exact ⟨_, _, _, _, looksAt_get_with_lock map key, fun d a h => h ▸ rfl, fun _ => rfl⟩
  | GetMulti multi_map key c' =>
    cases h
    exact ⟨_, _, _, _, looksAt_get_with_lock_multi multi_map key, fun d a h => ⟨a, h, rfl⟩, fun _ => rfl⟩
  | Len map c' =>
    cases h
    exact ⟨_, _, _, _, looksAt_map_len map, fun d a h => h ▸ rfl, fun _ => rfl⟩
  | _ => cases h

/-! ### Accounts -/

variable {ι σ Env Job : Type} {site : LTS.Site ι σ Env Op Job Op.Resp} {D : Discipline site} {w : ι}
  {s s' : σ} {c : ReadConsistency} {I : σ → Prop} {Caught : NodeId → σ → Prop}
  {V : NodeId → StateMachineData → σ → Prop}

/-- `V j d s`: node `j` has shown the data `d`. While `I` holds, worker `w` finds
    such data at a node that has `Caught` up as far as `c` asks for. -/
structure Viewing (D : Discipline site) (w : ι) (c : ReadConsistency) (I : σ → Prop)
    (Caught : NodeId → σ → Prop) (V : NodeId → StateMachineData → σ → Prop) : Prop
    extends Routes D w I where
  after : ∀ j d s s', D.rel w s s' → V j d s → V j d s'
  /-- What `ensure_consistency` establishes. -/
  check : ∀ j s, D.inv s → I s → D.wp w (fun r s' => I s' ∧ ((∃ u, r = .ok u) → Caught j s'))
    (ensure_consistency j c).run s
  /-- What `should_read_stale` establishes. -/
  choose_node : ∀ i s, D.inv s → I s →
    D.wp w (Rely.ifOk fun here s' => I s' ∧ (here = true → Caught i s')) (linked (should_read_stale i c)) s
  look : ∀ {α : Type} {read : NodeId → NodeProg α} {P : StateMachineData → α → Prop},
    LooksAt read P → ∀ j s, D.inv s → I s → Caught j s →
      D.wp w (fun a s' => I s' ∧ ∃ d, V j d s' ∧ P d a) (read j) s

/-- `P` relates the value to data that one of the nodes `N` has shown. -/
def Found (V : NodeId → StateMachineData → σ → Prop) (N : NodeId → Prop) {α : Type}
    (P : StateMachineData → α → Prop) (a : α) (s : σ) : Prop :=
  ∃ j d, N j ∧ V j d s ∧ P d a

/-- The nodes that may answer a read of node `i`. -/
def Reached (c : ReadConsistency) (i : NodeId) (j : NodeId) : Prop := c = .Stale → j = i

section found
variable {α β : Type} {N N' : NodeId → Prop} {P : StateMachineData → α → Prop}

theorem Found.imp {P' : StateMachineData → β → Prop} {a : α} {b : β} (hN : ∀ j, N j → N' j)
    (hP : ∀ d, P d a → P' d b) (h : Found V N P a s) : Found V N' P' b s := by
  obtain ⟨j, d, hj, hd, ha⟩ := h
  exact ⟨j, d, hN j hj, hd, hP d ha⟩

theorem Viewing.found_stable (h : Viewing D w c I Caught V) {a : α} (hr : D.rel w s s')
    (ha : Found V N P a s) : Found V N P a s' := by
  obtain ⟨j, d, hj, hd, ha⟩ := ha
  exact ⟨j, d, hj, h.after j d s s' hr hd, ha⟩

theorem wp_found_as {P' : StateMachineData → α → Prop} {x : NodeProg (Except Error α)}
    (hP : ∀ d a, P d a → P' d a) (h : D.wp w (Rely.ifOk (Found V N P)) x s) :
    D.wp w (Rely.ifOk (Found V N P')) x s :=
  Discipline.wp_mono (fun _ _ _ hr a ha => (hr a ha).imp (fun _ h => h) fun d hd => hP d a hd) h

end found

namespace Viewing

section requests
variable {α : Type} {i : NodeId} {N : NodeId → Prop}

/-- A request that reads, on node `j`. -/
theorem body (h : Viewing D w c I Caught V) {body : RequestBody} (hbody : body.consistency = some c)
    (j : NodeId) (hi : D.inv s) (hs : I s) :
    D.wp w (Handled I (Found V (· = j) body.Observes)) (handle_body j body) s := by
  obtain ⟨α, read, P, respond, hlook, hobs, heq⟩ := handle_body_of_consistency hbody
  rw [heq, consistent_read, ExceptT.run_bind]
  refine Discipline.wp_bind hi (Discipline.wp_mono ?_ (h.check j s hi hs))
  intro r s₁ hi₁ hr
  obtain ⟨hs₁, hcaught⟩ := hr
  cases r with
  | error e =>
    intro s₂ _ hr₂ _
    exact h.before _ _ hr₂ hs₁
  | ok u =>
    refine Discipline.wp_run_lift_bind hi₁ (Discipline.wp_mono ?_
      (h.look hlook j s₁ hi₁ hs₁ (hcaught ⟨u, rfl⟩)))
    intro a s₂ _ hseen s₃ _ hr₃
    obtain ⟨_, d, hd, ha⟩ := hseen
    exact ⟨j, d, rfl, h.after _ _ _ _ hr₃ hd, hobs d a ha⟩

/-- Whichever node answers a request that reads shows something. -/
theorem serves (h : Viewing D w c I Caught V) {body : RequestBody} (hbody : body.consistency = some c) :
    Serves D w body I (Found V (fun _ => True) body.Observes) where
  toRoutes := h.toRoutes
  after := fun _ _ _ hr hresp => h.found_stable hr hresp
  handle := by
    intro j s hi hs
    refine Discipline.wp_mono ?_ (h.body hbody j hi hs)
    intro r s' _ hr
    cases r with
    | ok resp => exact Found.imp (fun _ _ => trivial) (fun _ h => h) hr
    | error e => exact hr

/-- A message that reads is answered by the node that it was sent to. -/
theorem message (h : Viewing D w c I Caught V) {body : RequestBody}
    (hbody : body.consistency = some c) (i : NodeId) (target : Option NodeId) (hi : D.inv s)
    (hs : I s) :
    D.wp w (Rely.ifOk (Found V (· = i) body.Observes)) (handle_message i ⟨target, body⟩) s := by
  have hbody : ∀ s, D.inv s → I s →
      D.wp w (Rely.ifOk (Found V (· = i) body.Observes)) (handle_body i body) s := by
    intro s hi hs
    refine Discipline.wp_mono ?_ (h.body hbody i hi hs)
    intro r s' _ hr resp hresp
    subst hresp
    exact hr
  unfold handle_message
  split
  · exact hbody s hi hs
  · refine (h.quiet (.server_metrics i) trivial).wp ?_
    intro s₁ hi₁ hr₁ metrics
    -- a message for another node is refused
    show D.wp w _ (if _ then _ else _) _
    split
    · exact Discipline.wp_error
    · exact hbody s₁ hi₁ (h.before s s₁ hr₁ hs)

end requests

/-! ### The methods that read -/

section methods
variable {α β : Type} {i : NodeId} {N : NodeId → Prop} {P : StateMachineData → α → Prop}

/-- A node serves a stale read itself. -/
theorem choose (h : Viewing D w c I Caught V) (i : NodeId) (hi : D.inv s) (hs : I s) :
    D.wp w (Rely.ifOk fun here s' => I s' ∧ (here = true → Caught i s') ∧ (c = .Stale → here = true))
      (linked (should_read_stale i c)) s := by
  have hchoose := h.choose_node i s hi hs
  cases c with
  | Stale =>
    intro s' hi' hr' here hhere
    obtain ⟨hs', hcaught⟩ := hchoose s' hi' hr' here hhere
    cases hhere
    exact ⟨hs', hcaught, fun _ => rfl⟩
  | LeaderStale | LeaseRead | ReadIndex =>
    refine Discipline.wp_mono ?_ hchoose
    exact fun r s' _ hr here hhere => ⟨(hr here hhere).1, (hr here hhere).2, fun h => (by cases h)⟩

/-- A method that reads: from the node's own state or from the leader. -/
theorem here_or_there (h : Viewing D w c I Caught V) {Q : β → σ → Prop} {here : NodeResult Error β}
    {there : Client → NodeResult Error β} (hi : D.inv s) (hs : I s)
    (hhere : ∀ s', D.inv s' → I s' → Caught i s' → D.wp w (Rely.ifOk Q) (linked here) s')
    (hthere : c ≠ .Stale → ∀ client s', D.inv s' → I s' →
      D.wp w (Rely.ifOk Q) (linked (there client)) s') :
    D.wp w (Rely.ifOk Q) (linked (do
      if ← should_read_stale i c then here
      else
        let client ← client_to_leader i
        there client)) s := by
  refine Serves.wp_linked_bind hi (Discipline.wp_mono ?_ (h.choose i hi hs))
  intro r s₁ _ hr b hb hi₁
  obtain ⟨hs₁, hcaught, hstale⟩ := hr b hb
  cases b with
  | true => exact hhere s₁ hi₁ hs₁ (hcaught rfl)
  | false =>
    refine h.toRoutes.to_leader i hi₁ hs₁ fun client s₂ hi₂ hs₂ => ?_
    refine hthere (fun hc => ?_) client s₂ hi₂ hs₂
    cases hstale hc

theorem here (h : Viewing D w c I Caught V) {read : NodeId → NodeProg α} (hlook : LooksAt read P)
    (hi : D.inv s) (hs : I s) (hc : Caught i s) :
    D.wp w (Rely.ifOk (Found V (Reached c i) P)) (linked (liftM (read i) : NodeResult Error α)) s := by
  have huses : (read i).Uses Prog.AnyAnswer fun o => link o = Prog.perform o := by
    cases hlook with
    | call o k hlink _ => exact ⟨hlink i, fun _ _ => trivial⟩
  rw [linked_lift_of_uses huses]
  refine Discipline.wp_map (Discipline.wp_mono ?_ (h.look hlook i s hi hs hc))
  intro a s' _ ha b hb
  obtain ⟨_, d, hd, hP⟩ := ha
  cases hb
  exact ⟨i, d, fun _ => rfl, hd, hP⟩

theorem there (h : Viewing D w c I Caught V) {body : RequestBody} (hbody : body.consistency = some c)
    {accept : Response → Option α} (haccept : ∀ d resp a, body.Observes d resp →
      accept resp = some a → P d a) (hc : c ≠ .Stale) (fuel : Nat) (client : Client) (hi : D.inv s)
    (hs : I s) :
    D.wp w (Rely.ifOk (Found V (Reached c i) P)) (linked (client.call fuel body accept)) s := by
  refine Discipline.wp_mono ?_ ((h.serves hbody).call accept fuel client hi hs)
  intro r s' _ hr a ha
  obtain ⟨resp, hacc, hfound⟩ := hr a ha
  exact hfound.imp (fun _ _ h => absurd h hc) fun d hd => haccept d resp a hd hacc

/-- What is computed from a value that was shown. -/
theorem compute (h : Viewing D w c I Caught V) {x : NodeResult Error α} {g : α → Except Error β}
    (hi : D.inv s) (hx : D.wp w (Rely.ifOk (Found V N P)) (linked x) s) :
    D.wp w (Rely.ifOk (Found V N fun d b => ∃ a, P d a ∧ g a = .ok b))
      (linked (x >>= fun a => ExceptT.mk (pure (g a)))) s := by
  refine Discipline.wp_mono ?_ (wp_linked_decode (P := Found V N P)
    (fun _ _ _ hr ha => h.found_stable hr ha) hi hx)
  intro r s' _ hr b hb
  obtain ⟨a, hg, ha⟩ := hr b hb
  exact ha.imp (fun _ h => h) fun d hd => ⟨a, hd, hg⟩

variable {K U Q : Type} [Serialize Q]

theorem get [Deserialize U] (h : Viewing D w c I Caught V) (fuel : Nat) (m : DMap K U) (key : Q)
    (hi : D.inv s) (hs : I s) :
    D.wp w (Rely.ifOk (Found V (Reached c m.cluster) fun d value =>
        ∃ bs, Serialize.to_allocvec key = .ok bs ∧
          DMap.decode_value (d.get_with_lock m.name bs) = .ok value))
      (linked (m.get_with fuel key c)) s := by
  -- both ways end in the same decoding
  have hdecoded : ∀ (bs : Bytes) (d : StateMachineData) (value : Option U),
      Serialize.to_allocvec key = .ok bs →
      (∃ a, a = d.get_with_lock m.name bs ∧ DMap.decode_value a = .ok value) →
      ∃ bs, Serialize.to_allocvec key = .ok bs ∧
        DMap.decode_value (d.get_with_lock m.name bs) = .ok value := by
    intro bs d value hbs ha
    obtain ⟨a, rfl, ha⟩ := ha
    exact ⟨bs, hbs, ha⟩
  refine h.here_or_there hi hs ?_ ?_
  · intro s₁ hi₁ hs₁ hc
    refine wp_encoded fun bs hbs => wp_found_as (fun d value => hdecoded bs d value hbs) ?_
    exact h.compute hi₁ (h.here (looksAt_get_with_lock m.name bs) hi₁ hs₁ hc)
  · intro hc client s₁ hi₁ hs₁
    refine wp_encoded fun bs hbs => wp_found_as (fun d value => hdecoded bs d value hbs) ?_
    refine h.compute hi₁ (h.there (show (RequestBody.Get m.name bs c).consistency = some c from rfl) ?_ hc fuel client hi₁ hs₁)
    intro d resp a hobs hacc
    cases hobs
    cases hacc
    rfl

theorem contains_key (h : Viewing D w c I Caught V) (fuel : Nat) (m : DMap K U) (key : Q)
    (hi : D.inv s) (hs : I s) :
    D.wp w (Rely.ifOk (Found V (Reached c m.cluster) fun d found =>
        ∃ bs, Serialize.to_allocvec key = .ok bs ∧ found = d.contains_key m.name bs))
      (linked (m.contains_key_with fuel key c)) s := by
  refine h.here_or_there hi hs ?_ ?_
  · intro s₁ hi₁ hs₁ hc
    refine wp_encoded fun bs hbs => wp_found_as ?_ (h.compute (g := .ok) hi₁
      (h.here (looksAt_contains_key m.name bs) hi₁ hs₁ hc))
    intro d found ha
    obtain ⟨a, rfl, ha⟩ := ha
    cases ha
    exact ⟨bs, hbs, rfl⟩
  · intro hc client s₁ hi₁ hs₁
    refine wp_encoded fun bs hbs => wp_found_as (P := fun d a => a = d.contains_key m.name bs)
      (fun _ _ ha => ⟨bs, hbs, ha⟩) ?_
    refine h.there (show (RequestBody.ContainsKey m.name bs c).consistency = some c from rfl) ?_ hc fuel client hi₁ hs₁
    intro d resp a hobs hacc
    cases hobs
    cases hacc
    rfl

theorem len (h : Viewing D w c I Caught V) (fuel : Nat) (m : DMap K U) (hi : D.inv s) (hs : I s) :
    D.wp w (Rely.ifOk (Found V (Reached c m.cluster) fun d n => n = (d.map_len m.name).getD 0))
      (linked (m.len_with fuel c)) s := by
  refine h.here_or_there hi hs ?_ ?_
  · intro s₁ hi₁ hs₁ hc
    exact h.here (looksAt_len_stale (K := K) (V := U) m.name) hi₁ hs₁ hc
  · intro hc client s₁ hi₁ hs₁
    refine wp_found_as ?_ (h.compute (g := fun a => .ok (a.getD 0))
      (P := fun d a => a = d.map_len m.name) hi₁
      (h.there (show (RequestBody.Len m.name c).consistency = some c from rfl) ?_ hc fuel client hi₁ hs₁))
    · intro d n ha
      obtain ⟨a, rfl, ha⟩ := ha
      cases ha
      rfl
    · intro d resp a hobs hacc
      cases hobs
      cases hacc
      rfl

theorem get_multi [Deserialize U] (h : Viewing D w c I Caught V) (fuel : Nat) (m : DMultiMap K U)
    (key : Q) (hi : D.inv s) (hs : I s) :
    D.wp w (Rely.ifOk (Found V (Reached c m.cluster) fun d values =>
        ∃ bs l, Serialize.to_allocvec key = .ok bs ∧
          Option.Rel HashSet.Lists (d.get_with_lock_multi m.name bs) l ∧
          DMultiMap.decode_values l = .ok values))
      (linked (m.get_with fuel key c)) s := by
  have hdecoded : ∀ (bs : Bytes) (d : StateMachineData) (values : List U),
      Serialize.to_allocvec key = .ok bs →
      (∃ l, Option.Rel HashSet.Lists (d.get_with_lock_multi m.name bs) l ∧
        DMultiMap.decode_values l = .ok values) →
      ∃ bs l, Serialize.to_allocvec key = .ok bs ∧
        Option.Rel HashSet.Lists (d.get_with_lock_multi m.name bs) l ∧
        DMultiMap.decode_values l = .ok values := by
    intro bs d values hbs ha
    obtain ⟨l, hl, ha⟩ := ha
    exact ⟨bs, l, hbs, hl, ha⟩
  refine h.here_or_there hi hs ?_ ?_
  · intro s₁ hi₁ hs₁ hc
    refine wp_encoded fun bs hbs => wp_found_as (fun d values => hdecoded bs d values hbs) ?_
    exact h.compute hi₁ (h.here (looksAt_get_with_lock_multi m.name bs) hi₁ hs₁ hc)
  · intro hc client s₁ hi₁ hs₁
    refine wp_encoded fun bs hbs => wp_found_as (fun d values => hdecoded bs d values hbs) ?_
    refine h.compute hi₁ (h.there (show (RequestBody.GetMulti m.name bs c).consistency = some c from rfl) ?_ hc fuel client hi₁ hs₁)
    intro d resp a hobs hacc
    obtain ⟨l, hl, rfl⟩ := hobs
    cases hacc
    exact hl

/-- What a read returns is found in data that a node has shown, for a stale read the
    node that it was made on. -/
theorem reading {T : Type} {Ty : T → Type} [∀ t, Serialize (Ty t)] [∀ t, Deserialize (Ty t)]
    (r : Reading Ty) (h : Viewing D w r.consistency I Caught V) (hi : D.inv s) (hs : I s) :
    D.wp w (Rely.ifOk (Found V (Reached r.consistency r.cluster) r.Observes)) (linked r.method) s := by
  obtain ⟨name, cluster, fuel, query, consistency⟩ := r
  cases query with
  | get k v q key =>
    refine wp_found_as ?_ (h.compute (g := fun value => .ok (Answer.get v value)) hi
      (h.get (K := Ty k) fuel ⟨name, cluster⟩ key hi hs))
    intro d a ha
    obtain ⟨value, ⟨bs, hbs, hval⟩, ha⟩ := ha
    cases ha
    exact ⟨bs, value, hbs, hval, rfl⟩
  | contains_key k v q key =>
    refine wp_found_as ?_ (h.compute (g := fun found => .ok (Answer.contains_key found)) hi
      (h.contains_key (K := Ty k) (U := Ty v) fuel ⟨name, cluster⟩ key hi hs))
    intro d a ha
    obtain ⟨found, ⟨bs, hbs, rfl⟩, ha⟩ := ha
    cases ha
    exact ⟨bs, hbs, rfl⟩
  | len k v =>
    refine wp_found_as ?_ (h.compute (g := fun n => .ok (Answer.len n)) hi
      (h.len (K := Ty k) (U := Ty v) fuel ⟨name, cluster⟩ hi hs))
    intro d a ha
    obtain ⟨n, rfl, ha⟩ := ha
    cases ha
    rfl
  | get_multi k v q key =>
    refine wp_found_as ?_ (h.compute (g := fun values => .ok (Answer.get_multi v values)) hi
      (h.get_multi (K := Ty k) fuel ⟨name, cluster⟩ key hi hs))
    intro d a ha
    obtain ⟨values, ⟨bs, l, hbs, hl, hval⟩, ha⟩ := ha
    cases ha
    exact ⟨bs, l, values, hbs, hl, hval, rfl⟩

end methods

end Viewing

/-! ### What nodes have applied -/

open World (Advances)

/-- A prefix that node `i` has shown after `w₀`: it holds what the node had
    applied then, and with a consistency that asks for it, all that was
    committed then. -/
structure Glimpse (w₀ : World) (c : ReadConsistency) (i : NodeId) (w : World) (p : Nat) : Prop where
  applied : w₀.applied i ≤ p
  committed : c.linearizable = true → w₀.log.length ≤ p
  shown : p ≤ w.applied i
  in_log : p ≤ w.log.length

theorem Glimpse.mono {w₀ w w' : World} {c : ReadConsistency} {i : NodeId} {p : Nat}
    (h : Glimpse w₀ c i w p) (hr : Advances w w') : Glimpse w₀ c i w' p where
  applied := h.applied
  committed := h.committed
  shown := h.shown.trans (hr.applied i)
  in_log := h.in_log.trans hr.log.length_le

section applied
variable {ι Job : Type} {site : LTS.Site ι (Ledger ι Job) (RaftMove × Option Nat) Op Job Op.Resp}
  {D : Discipline site} {caller : ι} {s : Ledger ι Job} {w₀ : World}

/-- Whoever makes a call or a move takes the cluster forward, and what a call does
    is what it does to the cluster. -/
structure Forwards (D : Discipline site) (caller : ι) : Prop where
  kept : D.Kept
  rel : ∀ {s s'}, D.rel caller s s' → Advances s.world s'.world
  call : ∀ {s o r s'}, D.inv s → site.call caller s o r s' →
    s.world.call o r s'.world ∧ Advances s.world s'.world

namespace Forwards

/-- The rule for a call. -/
theorem wp_call (h : Forwards D caller) {α : Type} {Q : α → Ledger ι Job → Prop} {o : Op}
    {k : o.Resp → NodeProg α} (hs : Advances w₀ s.world)
    (hnext : ∀ s' r s'', D.inv s' → Advances s.world s'.world → s'.world.call o r s''.world →
      Advances w₀ s''.world → Advances s'.world s''.world → D.wp caller Q (k r) s'') :
    D.wp caller Q (.call o k) s := by
  refine Discipline.wp_call_kept h.kept ?_
  intro s₁ hi₁ hr₁ r s₂ hc
  obtain ⟨hcall, hadv⟩ := h.call hi₁ hc
  exact hnext s₁ r s₂ hi₁ (h.rel hr₁) hcall ((hs.trans (h.rel hr₁)).trans hadv) hadv

/-- Raft confirms a read only on a node that has caught up. -/
theorem ensure_linearizable (h : Forwards D caller) (i : NodeId) (hs : Advances w₀ s.world) :
    D.wp caller (fun r s' => Advances w₀ s'.world ∧ ∀ l, r = .ok l → w₀.log.length ≤ s'.world.applied i)
      (Raft.ensure_linearizable i) s := by
  refine h.wp_call hs ?_
  intro s₁ ticket s₂ _ hr₁ hcall hs₂ _
  obtain ⟨hticket, _⟩ := hcall
  refine h.wp_call hs₂ ?_
  intro s₃ r s₄ _ hr₃ hcall hs₄ _ s₅ _ hr₅
  refine ⟨hs₄.trans (h.rel hr₅), ?_⟩
  intro l hl
  subst hl
  obtain ⟨hle, heq⟩ := hcall
  -- the ticket is at least as long as the log was at the start
  have hlog := hs.log.length_le
  have hlog₁ := hr₁.log.length_le
  have happ : s₃.world.applied i ≤ s₅.world.applied i := by
    rw [← heq]
    exact (h.rel hr₅).applied i
  omega

theorem check (h : Forwards D caller) (c : ReadConsistency) (i : NodeId) (hi : D.inv s)
    (hs : Advances w₀ s.world) :
    D.wp caller (fun r s' => Advances w₀ s'.world ∧
        ((∃ u, r = .ok u) → c.linearizable = true → w₀.log.length ≤ s'.world.applied i))
      (ensure_consistency i c).run s := by
  have hlin : D.wp caller (fun r s' => Advances w₀ s'.world ∧
        ((∃ u, r = .ok u) → ReadConsistency.ReadIndex.linearizable = true →
          w₀.log.length ≤ s'.world.applied i))
      (ensure_consistency i .ReadIndex).run s := by
    refine Discipline.wp_bind hi (Discipline.wp_map (Discipline.wp_mono ?_ (h.ensure_linearizable i hs)))
    intro r s₁ _ hr
    obtain ⟨hs₁, hcaught⟩ := hr
    cases r with
    | error e =>
      intro s₂ _ hr₂
      refine ⟨hs₁.trans (h.rel hr₂), ?_⟩
      intro hok
      obtain ⟨u, hu⟩ := hok
      cases hu
    | ok l =>
      intro s₂ _ hr₂
      exact ⟨hs₁.trans (h.rel hr₂), fun _ _ => (hcaught l rfl).trans ((h.rel hr₂).applied i)⟩
  cases c with
  | Stale | LeaderStale =>
    intro s' _ hr
    exact ⟨hs.trans (h.rel hr), fun _ hc => (by cases hc)⟩
  | LeaseRead | ReadIndex => exact hlin

theorem choose_node (h : Forwards D caller) (c : ReadConsistency) (i : NodeId) (hi : D.inv s)
    (hs : Advances w₀ s.world) :
    D.wp caller (Rely.ifOk fun here s' => Advances w₀ s'.world ∧
        (here = true → c.linearizable = true → w₀.log.length ≤ s'.world.applied i))
      (linked (should_read_stale i c)) s := by
  -- what is returned at once
  have hpure : ∀ {s : Ledger ι Job} {b : Bool}, Advances w₀ s.world →
      (b = true → c.linearizable = true → w₀.log.length ≤ s.world.applied i) →
      D.wp caller (Rely.ifOk fun here s' => Advances w₀ s'.world ∧
        (here = true → c.linearizable = true → w₀.log.length ≤ s'.world.applied i))
        (.pure (.ok b) : NodeProg (Except Error Bool)) s := by
    intro s b hs hb s' _ hr b' hb'
    cases hb'
    exact ⟨hs.trans (h.rel hr), fun hb' hc => (hb hb' hc).trans ((h.rel hr).applied i)⟩
  -- what is decided once the node believes that it is the leader
  have hlocal : ∀ s, D.inv s → Advances w₀ s.world →
      D.wp caller (fun r s' => Advances w₀ s'.world ∧
        (r = .ok () → c.linearizable = true → w₀.log.length ≤ s'.world.applied i))
        (ensure_local_consistency i c) s := by
    intro s hi hs
    have hlin : D.wp caller (fun r s' => Advances w₀ s'.world ∧
        (r = .ok () → c.linearizable = true → w₀.log.length ≤ s'.world.applied i))
        (Except.map (fun _ => ()) <$> Raft.ensure_linearizable i) s := by
      refine Discipline.wp_map (Discipline.wp_mono ?_ (h.ensure_linearizable i hs))
      intro r s' _ hr
      refine ⟨hr.1, fun hok _ => ?_⟩
      cases r with
      | error e => cases hok
      | ok l => exact hr.2 l rfl
    cases c with
    | Stale | LeaderStale =>
      intro s' _ hr
      exact ⟨hs.trans (h.rel hr), fun _ hc => (by cases hc)⟩
    | LeaseRead | ReadIndex => exact hlin
  have huses : (ensure_local_consistency i c).Uses Prog.AnyAnswer
      fun o => link o = Prog.perform o := by
    cases c with
    | Stale | LeaderStale => trivial
    | LeaseRead | ReadIndex => exact ⟨rfl, fun _ _ => ⟨rfl, fun _ _ => trivial⟩⟩
  cases c with
  | Stale => exact hpure hs fun _ hc => (by cases hc)
  | LeaderStale | LeaseRead | ReadIndex =>
    refine Serves.wp_linked_bind hi (h.wp_call hs ?_)
    intro s₁ leader s₂ _ _ _ hs₂ _ s₃ _ hr₃ b hb hi₃
    have hs₃ := hs₂.trans (h.rel hr₃)
    split
    · exact hpure hs₃ fun hb => (by cases hb)
    · refine Serves.wp_linked_bind hi₃ ?_
      rw [linked_lift_of_uses huses]
      refine Discipline.wp_map (Discipline.wp_mono ?_ (hlocal s₃ hi₃ hs₃))
      intro r s₄ _ hr r' hr' hi₄
      cases hr'
      split
      · exact hpure hr.1 fun _ => hr.2 rfl
      · exact hpure hr.1 fun hb => (by cases hb)
      · exact Discipline.wp_error

/-- If `R` relates the data of a node to the prefix that it has applied, then what a read
    finds is so related to a prefix that some node has shown. -/
theorem views (h : Forwards D caller) (hquiet : ∀ o, Travels o → Quiet D o)
    {R : StateMachineData → StateMachineData → Prop}
    (hnode : ∀ s j, D.inv s → s.world.applied j ≤ s.world.log.length ∧
      R (s.world.data j) (replay s.world.log (s.world.applied j)).data)
    (w₀ : World) (c : ReadConsistency) :
    Viewing D caller c (fun s => Advances w₀ s.world)
      (fun j s => c.linearizable = true → w₀.log.length ≤ s.world.applied j)
      fun j d s => ∃ p, Glimpse w₀ c j s.world p ∧ R d (replay s.world.log p).data where
  quiet := hquiet
  before := fun _ _ hr hs => hs.trans (h.rel hr)
  after := by
    intro j d s s' hr hd
    obtain ⟨p, hp, hR⟩ := hd
    refine ⟨p, hp.mono (h.rel hr), ?_⟩
    rw [replay_of_advances (h.rel hr) hp.in_log]
    exact hR
  check := fun j s hi hs => h.check c j hi hs
  choose_node := fun j s hi hs => h.choose_node c j hi hs
  look := by
    intro α read P hlook j s hi hs hcaught
    cases hlook with
    | call o k _ hfinds =>
      refine h.wp_call hs ?_
      intro s₁ r s₂ hi₁ hr₁ hcall hs₂ hadv₂ s₃ _ hr₃
      obtain ⟨hP, _⟩ := hfinds j _ r _ hcall
      obtain ⟨hle, hR⟩ := hnode s₁ j hi₁
      have hadv := hadv₂.trans (h.rel hr₃)
      -- the node shows the prefix that it has applied by now
      have hshown : Glimpse w₀ c j s₁.world (s₁.world.applied j) :=
        ⟨(hs.trans hr₁).applied j, fun hlin => (hcaught hlin).trans (hr₁.applied j), Nat.le_refl _, hle⟩
      refine ⟨hs₂.trans (h.rel hr₃), s₁.world.data j, ⟨_, hshown.mono hadv, ?_⟩, hP⟩
      rw [replay_of_advances hadv hle]
      exact hR

end Forwards

end applied

end Distruct

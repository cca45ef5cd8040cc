import Asapo.Consumer.TcpConsumerClient
import Asapo.Interleaving

namespace Asapo.Consumer.ExclusiveUse

open Interleaving Transition

/-- A descriptor that a call sends on or receives from is connected to the source of the call,
the pool lists it as in use for that source, and no other call uses it. -/
structure Exclusive {n : ℕ} (s : System Network Call n) : Prop where
  connected : ∀ i source sd, (s.threads i).uses = some (source, sd) →
    s.shared.peers sd = some source ∧ ⟨source, sd, true⟩ ∈ s.shared.connections
  alone : ∀ i j, i ≠ j → ∀ source source' sd, (s.threads i).uses = some (source, sd) →
    (s.threads j).uses ≠ some (source', sd)

inductive Failure where
  | connect
  | send
  | receiveResponse
  | answer (code : ResponseCode)
  | allocate
  | receiveData
  | close
  deriving DecidableEq

def failure : Step → Option Failure
  | .pool (.error _) => some .connect
  | .send (some _) => some .send
  | .receiveResponse (.error _) => some .receiveResponse
  | .receiveResponse (.ok code) => if code = .inl .noError then none else some (.answer code)
  | .allocate true => some .allocate
  | .receiveData (some _) => some .receiveData
  | .close true => some .close
  | _ => none

def Only (allowed : Failure → Prop) (_ : Network) (_ : Call) (a : Step) : Prop :=
  ∀ f ∈ failure a, allowed f

instance (allowed : Failure → Prop) [DecidablePred allowed] (s : Network) (c : Call) (a : Step) :
    Decidable (Only allowed s c a) := inferInstanceAs (Decidable (∀ f ∈ failure a, allowed f))

/-- The failures after which no socket is closed. -/
def Failure.LeavesOpen : Failure → Prop
  | .send | .receiveResponse | .receiveData => False
  | .answer code => code ≠ .inl .notSupported ∧ code ≠ .inl .wrongRequest
  | .connect | .allocate | .close => True

def noWorld (_ : Network) (e : Empty) : Option Network := e.elim

abbrev start (n : ℕ) : System Network Call n := ⟨⟨[], fun _ => none⟩, fun _ => .returned none⟩

/-- The descriptor that a call has taken from the pool and not given back. -/
def holds : Call → Option (Text × SocketDescriptor)
  | .sendGetDataRequest info sd _ => some (info.source, sd)
  | .receiveResponse info sd => some (info.source, sd)
  | .allocate info sd => some (info.source, sd)
  | .receiveData info sd => some (info.source, sd)
  | .cleanUp info sd .release _ _ _ => some (info.source, sd)
  | _ => none

def Calm : Call → Prop
  | .cleanUp _ _ todo rest _ tryReconnect => todo = .release ∧ rest = [] ∧ tryReconnect = false
  | .reconnect _ _ => False
  | _ => True

inductive Moves (s : Network) (c : Call) : Network → Call → Prop
  | stay {c'} (hold : ∀ x, holds c' = some x → holds c = some x) : Moves s c s c'
  | take {source sd l r c'} (split : s.connections = l ++ ⟨source, sd, false⟩ :: r)
      (hold : holds c' = some (source, sd)) :
      Moves s c { s with connections := l ++ ⟨source, sd, true⟩ :: r } c'
  | connect {source sd c'} (closed : s.peers sd = none) (hold : holds c' = some (source, sd)) :
      Moves s c ⟨s.connections ++ [⟨source, sd, true⟩], Function.update s.peers sd (some source)⟩ c'
  | release {source sd c'} (held : holds c = some (source, sd)) (hold : holds c' = none) :
      Moves s c (s.releaseConnection sd) c'

variable {s t : Network} {c c' k : Call} {a : Step}

theorem moves_getFreeConnection {info : MessageMeta} {connected : Except Error SocketDescriptor}
    (h : Call.step s (.getFreeConnection info) (.pool connected) = some (t, c')) :
    Calm c' ∧ Moves s (.getFreeConnection info) t c' := by
  obtain ⟨⟨t', res⟩, hx, h⟩ := Option.map_eq_some_iff.mp h
  unfold Network.getFreeConnection at hx
  split at hx
  · rename_i sd connections htake
    cases hx
    cases h
    obtain ⟨l, r, hl, rfl⟩ := Network.takeFree_split htake
    exact ⟨trivial, .take hl rfl⟩
  · obtain ⟨⟨t'', sd⟩, hconnect, hx⟩ := Option.map_eq_some_iff.mp hx
    cases connected with
    | error err =>
      cases hconnect
      cases hx
      cases h
      exact ⟨trivial, .stay nofun⟩
    | ok sd =>
      rw [Network.connect] at hconnect
      split at hconnect <;> cases hconnect
      rename_i hclosed
      cases hx
      cases h
      exact ⟨trivial, .connect hclosed rfl⟩

theorem moves_response {info : MessageMeta} {sd : SocketDescriptor} {code : ResponseCode}
    (hopen : code ≠ .inl .noError → Failure.LeavesOpen (.answer code)) :
    Calm (Call.behindResponse info sd code) ∧
      Moves s (.receiveResponse info sd) s (Call.behindResponse info sd code) := by
  cases code with
  | inr code => exact ⟨trivial, .stay nofun⟩
  | inl code =>
    cases code with
    | noError => exact ⟨trivial, .stay (fun x hx => hx)⟩
    | noData => exact ⟨⟨rfl, rfl, rfl⟩, .stay (fun x hx => hx)⟩
    | notSupported => exact absurd rfl (hopen (by decide)).1
    | wrongRequest => exact absurd rfl (hopen (by decide)).2
    | reauthorize | warning | authorizationError | internalServerError =>
      exact ⟨trivial, .stay nofun⟩

theorem moves_step (hc : Calm c) (ha : Only Failure.LeavesOpen s c a)
    (h : Call.step s c a = some (t, c')) : Calm c' ∧ Moves s c t c' := by
  cases c with
  | returned err =>
    cases a with
    | getData info =>
      cases h
      exact ⟨trivial, .stay nofun⟩
    | _ => cases h
  | getFreeConnection info =>
    cases a with
    | pool connected => exact moves_getFreeConnection h
    | _ => cases h
  | sendGetDataRequest info sd tryReconnect =>
    cases a with
    | send err =>
      cases err with
      | none =>
        cases h
        exact ⟨trivial, .stay (fun x hx => hx)⟩
      | some err => exact (ha .send rfl).elim
    | _ => cases h
  | reconnect info sd => exact hc.elim
  | receiveResponse info sd =>
    cases a with
    | receiveResponse answer =>
      cases answer with
      | error err => exact (ha .receiveResponse rfl).elim
      | ok code =>
        cases h
        exact moves_response (fun hne => ha (.answer code) (by simp [failure, hne]))
    | _ => cases h
  | allocate info sd =>
    cases a with
    | allocate fault =>
      cases fault <;> cases h
      · exact ⟨trivial, .stay (fun x hx => hx)⟩
      · exact ⟨⟨rfl, rfl, rfl⟩, .stay (fun x hx => hx)⟩
    | _ => cases h
  | receiveData info sd =>
    cases a with
    | receiveData err =>
      cases err with
      | none =>
        cases h
        exact ⟨⟨rfl, rfl, rfl⟩, .stay (fun x hx => hx)⟩
      | some err => exact (ha .receiveData rfl).elim
    | _ => cases h
  | cleanUp info sd todo rest err tryReconnect =>
    obtain ⟨rfl, rfl, rfl⟩ := hc
    cases a with
    | release =>
      cases h
      exact ⟨trivial, .release rfl rfl⟩
    | _ => cases h

/-- Every descriptor of the pool is listed once and is connected to its source. -/
structure Listed (s : Network) : Prop where
  distinct : (s.connections.map (·.sd)).Nodup
  connected : ∀ x ∈ s.connections, s.peers x.sd = some x.uri

def InUse (s : Network) (c : Call) : Prop :=
  ∀ source sd, holds c = some (source, sd) → ⟨source, sd, true⟩ ∈ s.connections

def Apart (c k : Call) : Prop :=
  ∀ source source' sd, holds c = some (source, sd) → holds k ≠ some (source', sd)

theorem not_listed (hs : Listed s) {sd : SocketDescriptor} (hclosed : s.peers sd = none) :
    ∀ x ∈ s.connections, x.sd ≠ sd := by
  rintro x hx rfl
  rw [hs.connected x hx] at hclosed
  cases hclosed

theorem release_sd (sd : SocketDescriptor) (x : TcpConnectionInfo) :
    (Network.release sd x).sd = x.sd ∧ (Network.release sd x).uri = x.uri := by
  unfold Network.release
  split <;> exact ⟨rfl, rfl⟩

theorem listed_moves (hs : Listed s) (h : Moves s c t c') : Listed t := by
  cases h with
  | stay hold => exact hs
  | take split hold =>
    obtain ⟨hd, hc⟩ := hs
    rw [split] at hd hc
    refine ⟨by simpa using hd, fun x hx => ?_⟩
    rw [List.mem_append, List.mem_cons] at hx
    obtain hx | rfl | hx := hx
    · exact hc x (by simp [hx])
    · exact hc ⟨_, _, false⟩ (by simp)
    · exact hc x (by simp [hx])
  | connect closed hold =>
    have hnew := not_listed hs closed
    refine ⟨?_, fun x hx => ?_⟩
    · rw [List.map_append, List.nodup_append]
      refine ⟨hs.distinct, by simp, fun sd hsd sd' hsd' he => ?_⟩
      obtain ⟨x, hx, rfl⟩ := List.mem_map.mp hsd
      rw [List.map_singleton, List.mem_singleton] at hsd'
      exact hnew x hx (he.trans hsd')
    · obtain hx | hx := List.mem_append.mp hx
      · exact (Function.update_of_ne (hnew x hx) _ _).trans (hs.connected x hx)
      · rw [List.mem_singleton] at hx
        subst hx
        exact Function.update_self ..
  | @release source sd c' held hold =>
    refine ⟨?_, fun x hx => ?_⟩
    · have hmap : (s.releaseConnection sd).connections.map (·.sd) = s.connections.map (·.sd) := by
        rw [Network.releaseConnection, List.map_map]
        exact List.map_congr_left (fun x _ => (release_sd sd x).1)
      rw [hmap]
      exact hs.distinct
    · obtain ⟨y, hy, rfl⟩ := List.mem_map.mp hx
      rw [(release_sd sd y).1, (release_sd sd y).2]
      exact hs.connected y hy

theorem inUse_moves (hc : InUse s c) (h : Moves s c t c') : InUse t c' := by
  intro source sd hsd
  cases h with
  | stay hold => exact hc source sd (hold _ hsd)
  | take split hold =>
    cases hold.symm.trans hsd
    simp
  | connect closed hold =>
    cases hold.symm.trans hsd
    simp
  | release held hold =>
    rw [hold] at hsd
    cases hsd

theorem apart_moves (hs : Listed s) (hk : InUse s k) (hck : Apart c k) (h : Moves s c t c') :
    Apart c' k := by
  intro source source' sd hsd hk'
  have hmem := hk source' sd hk'
  cases h with
  | stay hold => exact hck source source' sd (hold _ hsd) hk'
  | take split hold =>
    cases hold.symm.trans hsd
    -- the connection that was free would be listed a second time
    rw [split] at hmem
    have hd := hs.distinct
    rw [split, List.map_append, List.map_cons, List.nodup_middle, List.nodup_cons] at hd
    apply hd.1
    rw [← List.map_append]
    rw [List.mem_append, List.mem_cons] at hmem
    obtain hl | he | hr := hmem
    · exact List.mem_map.mpr ⟨_, List.mem_append_left _ hl, rfl⟩
    · cases he
    · exact List.mem_map.mpr ⟨_, List.mem_append_right _ hr, rfl⟩
  | connect closed hold =>
    cases hold.symm.trans hsd
    exact not_listed hs closed _ hmem rfl
  | release held hold =>
    rw [hold] at hsd
    cases hsd

theorem inUse_others (hk : InUse s k) (hck : Apart c k) (h : Moves s c t c') : InUse t k := by
  intro source sd hsd
  have hmem := hk source sd hsd
  cases h with
  | stay hold => exact hmem
  | take split hold =>
    rw [split, List.mem_append, List.mem_cons] at hmem
    rw [List.mem_append, List.mem_cons]
    exact hmem.imp_right (fun hr => hr.elim nofun .inr)
  | connect closed hold => exact List.mem_append_left _ hmem
  | @release source' sd' c' held hold =>
    refine List.mem_map.mpr ⟨_, hmem, ?_⟩
    rw [Network.release, if_neg]
    rintro rfl
    exact hck source' source sd' held hsd

theorem keepsApart (allowed : Failure → Prop) (h : ∀ f, allowed f → f.LeavesOpen) :
    KeepsApart Call.step noWorld (Only allowed) Listed (fun s c => Calm c ∧ InUse s c) Apart where
  symm c k hck source source' sd hk hc := hck source' source sd hc hk
  own s c a t c' hs hc ha hstep := by
    obtain ⟨hcalm, hmoves⟩ := moves_step hc.1 (fun f hf => h f (ha f hf)) hstep
    exact ⟨listed_moves hs hmoves, hcalm, inUse_moves hc.2 hmoves⟩
  other s c k a t c' hs hc hk hck ha hstep := by
    obtain ⟨-, hmoves⟩ := moves_step hc.1 (fun f hf => h f (ha f hf)) hstep
    exact ⟨⟨hk.1, inUse_others hk.2 hck hmoves⟩, apart_moves hs hk.2 hck hmoves⟩
  world s e := e.elim

theorem holds_of_uses {x : Text × SocketDescriptor} (h : c.uses = some x) : holds c = some x := by
  cases c with
  | sendGetDataRequest | receiveResponse | receiveData => exact h
  | _ => cases h

theorem exclusive_of_apart {n : ℕ} (s : System Network Call n)
    (h : HoldsApart Listed (fun s c => Calm c ∧ InUse s c) Apart s) : Exclusive s where
  connected i source sd hi := by
    have hmem := (h.threads i).2 source sd (holds_of_uses hi)
    exact ⟨h.shared.connected _ hmem, hmem⟩
  alone i j hij source source' sd hi hj :=
    h.apart i j hij source source' sd (holds_of_uses hi) (holds_of_uses hj)

section Runs

def message (source : String) : MessageMeta := { MessageMeta.empty with source := text source }

def brokenPipe : Error := IOErrorTemplates.unknownIOError.generate "broken pipe"

def transfer (source : String) (sd : SocketDescriptor) : List Step :=
  [.getData (message source), .pool (.ok sd), .send none, .receiveResponse (.ok (.inl .noError)),
    .allocate false, .receiveData none, .release]

def breaking : Failure → List Step
  | .send => [.getData (message "a"), .pool (.ok 5), .send (some brokenPipe), .release, .close false,
      .getData (message "a"), .pool (.ok 6)]
  | .receiveResponse => [.getData (message "a"), .pool (.ok 5), .send none,
      .receiveResponse (.error brokenPipe), .close false, .release,
      .getData (message "a"), .pool (.ok 6)]
  | .receiveData => [.getData (message "a"), .pool (.ok 5), .send none,
      .receiveResponse (.ok (.inl .noError)), .allocate false, .receiveData (some brokenPipe),
      .release, .close false, .getData (message "a"), .pool (.ok 6)]
  | .answer (.inl .notSupported) => [.getData (message "a"), .pool (.ok 5), .send none,
      .receiveResponse (.ok (.inl .notSupported)), .close false, .release,
      .getData (message "a"), .pool (.ok 6)]
  -- the number stays in the pool, as in use, and is given back with its next connection
  | .answer (.inl .wrongRequest) => [.getData (message "a"), .pool (.ok 5), .send none,
      .receiveResponse (.ok (.inl .wrongRequest)), .close false] ++ transfer "b" 5 ++
      [.getData (message "a"), .pool (.ok 6)]
  | _ => []

abbrev events (steps : List Step) : List (Event Step Empty 1) := steps.map (.thread 0)

def Strays (steps : List Step) : Prop :=
  (exec (step Call.step noWorld) (start 1) (events steps)).any (fun t =>
    (t.threads 0).uses = some (text "a", 5) ∧ t.shared.peers 5 ≠ some (text "a")) = true

instance (steps : List Step) : Decidable (Strays steps) := inferInstanceAs (Decidable (_ = true))

theorem breaking_runs (f : Failure) (h : ¬ f.LeavesOpen) :
    Along (step Call.step noWorld) (OnThreads (Only (· = f))) (start 1) (events (breaking f)) ∧
      Strays (breaking f) := by
  cases f with
  | send | receiveResponse | receiveData => exact ⟨by decide +kernel, by decide +kernel⟩
  | answer code =>
    by_cases hn : code = .inl .notSupported
    · subst hn
      exact ⟨by decide +kernel, by decide +kernel⟩
    · by_cases hw : code = .inl .wrongRequest
      · subst hw
        exact ⟨by decide +kernel, by decide +kernel⟩
      · exact absurd ⟨hn, hw⟩ h
  | connect | allocate | close => exact absurd trivial h

theorem not_always_of_strays {steps : List Step} (h : Strays steps) :
    ¬ Always (step Call.step noWorld) Exclusive (start 1) (events steps) := by
  intro hall
  obtain ⟨t, ht, hx⟩ := (Option.any_eq_true _ _).mp h
  obtain ⟨huses, hpeer⟩ := of_decide_eq_true hx
  exact hpeer ((always_exec _ t _ hall ht).connected 0 _ _ huses).1

end Runs

/-- Calls with failures of some kinds have their connections for themselves in all runs exactly
if no socket is closed after such a failure. -/
theorem exclusive_iff (allowed : Failure → Prop) :
    (∀ (n : ℕ) (events : List (Event Step Empty n)),
      Along (step Call.step noWorld) (OnThreads (Only allowed)) (start n) events →
        Always (step Call.step noWorld) Exclusive (start n) events) ↔
      ∀ f, allowed f → f.LeavesOpen := by
  constructor
  · intro h f hf
    by_contra hclosed
    obtain ⟨hrun, hstrays⟩ := breaking_runs f hclosed
    apply not_always_of_strays hstrays
    apply h
    refine along_mono (fun s e he => ?_) _ _ hrun
    cases e with
    | thread i a => exact fun g hg => he g hg ▸ hf
    | world e => exact e.elim
  · intro h n events hrun
    apply (keepsApart allowed h).always exclusive_of_apart _ _ ?_ hrun
    exact ⟨⟨⟨List.nodup_nil, nofun⟩, fun _ => ⟨trivial, nofun⟩⟩, fun _ _ _ => nofun⟩

theorem reconnect_not_listed :
    ¬ ∀ (n : ℕ) (events : List (Event Step Empty n)),
      Always (step Call.step noWorld) Exclusive (start n) events := by
  intro h
  have hrun : (exec (step Call.step noWorld) (start 1) (events (transfer "a" 5 ++
      [.getData (message "a"), .pool (.ok 6), .send (some brokenPipe), .release, .close false,
        .pool (.ok 6)]))).any (fun t =>
      (t.threads 0).uses = some (text "a", 6) ∧ t.shared.connections = []) = true := by decide +kernel
  obtain ⟨t, ht, hx⟩ := (Option.any_eq_true _ _).mp hrun
  obtain ⟨huses, hnone⟩ := of_decide_eq_true hx
  have hmem := ((always_exec _ t _ (h 1 _) ht).connected 0 _ _ huses).2
  rw [hnone] at hmem
  cases hmem

end Asapo.Consumer.ExclusiveUse

import Asapo.Common.Error
import Asapo.Common.Networking

namespace Asapo.Consumer

abbrev SocketDescriptor := ℕ

structure TcpConnectionInfo where
  uri : Text
  sd : SocketDescriptor
  inUse : Bool
  deriving DecidableEq, Repr

structure Network where
  connections : List TcpConnectionInfo
  peers : SocketDescriptor → Option Text

namespace Network

/-- The operating system gives a connection any number that is not open. -/
def connect (s : Network) (source : Text) : Except Error SocketDescriptor →
    Option (Network × Except Error SocketDescriptor)
  | .error err => some (s, .error err)
  | .ok sd =>
    if s.peers sd = none then
      some ({ s with peers := Function.update s.peers sd (some source) }, .ok sd)
    else none

def takeFree (source : Text) : List TcpConnectionInfo →
    Option (SocketDescriptor × List TcpConnectionInfo)
  | [] => none
  | c :: cs =>
    if source = c.uri ∧ ¬ c.inUse then some (c.sd, { c with inUse := true } :: cs)
    else (takeFree source cs).map (fun (sd, cs) => (sd, c :: cs))

def getFreeConnection (s : Network) (source : Text) (connected : Except Error SocketDescriptor) :
    Option (Network × Except Error (SocketDescriptor × Bool)) :=
  match takeFree source s.connections with
  | some (sd, connections) => some ({ s with connections }, .ok (sd, true))
  | none =>
    (s.connect source connected).map (fun (s, sd) =>
      match sd with
      | .error err => (s, .error err)
      | .ok sd => ({ s with connections := s.connections ++ [⟨source, sd, true⟩] }, .ok (sd, false)))

/-- The error pointer itself is compared with null, and never is null. So the connection is
removed from the pool, whether it could be made again or not. -/
def reconnect (s : Network) (sd : SocketDescriptor) (connected : Except Error SocketDescriptor) :
    Option (Network × Except Error SocketDescriptor) :=
  match s.connections.find? (fun c => c.sd = sd) with
  | none =>
    some (s, .error (GeneralErrorTemplates.simpleError.generate "cannot find connection in pool"))
  | some c =>
    (s.connect c.uri connected).map (fun (s, new) =>
      ({ s with connections := s.connections.eraseP (fun c => c.sd = sd) }, new))

def release (sd : SocketDescriptor) (c : TcpConnectionInfo) : TcpConnectionInfo :=
  if sd = c.sd then { c with inUse := false } else c

def releaseConnection (s : Network) (sd : SocketDescriptor) : Network :=
  { s with connections := s.connections.map (release sd) }

def closeSocket (s : Network) (sd : SocketDescriptor) : Network :=
  { s with peers := Function.update s.peers sd none }

theorem takeFree_split {source : Text} {cs cs' : List TcpConnectionInfo} {sd : SocketDescriptor}
    (h : takeFree source cs = some (sd, cs')) :
    ∃ l r, cs = l ++ ⟨source, sd, false⟩ :: r ∧ cs' = l ++ ⟨source, sd, true⟩ :: r := by
  induction cs generalizing sd cs' with
  | nil => cases h
  | cons c cs ih =>
    rw [takeFree] at h
    split at h
    · rename_i hc
      obtain ⟨rfl, hfree⟩ := hc
      cases h
      have huse : c.inUse = false := by simpa using hfree
      exact ⟨[], cs, by simp [← huse], rfl⟩
    · obtain ⟨⟨sd', cs₀⟩, hx, h⟩ := Option.map_eq_some_iff.mp h
      cases h
      obtain ⟨l, r, rfl, rfl⟩ := ih hx
      exact ⟨c :: l, r, rfl, rfl⟩

end Network

end Asapo.Consumer

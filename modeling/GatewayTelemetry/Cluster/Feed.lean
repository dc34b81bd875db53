import GatewayTelemetry.Cluster.Basic

/-! # The feed of cluster objects

A watch runs in sessions. In a session listings and single changes arrive as notices; at the end
of a listing the objects it did not name are dropped. A new session knows nothing of what an
earlier one listed.
-/

namespace GatewayTelemetry

inductive Notice where
  | listingStarts
  | listed (d : Described)
  | listingEnds
  | applied (d : Described)
  | deleted (d : Described)
  deriving Repr, DecidableEq

def Described.key? (d : Described) : Option String :=
  d.name.map fun name =>
    match d.space with
    | some space => Pod.keyOf space name
    | none => name

structure Session where
  cluster : Cluster
  seen : List String

namespace Session

def receive (w : Watched) (s : Session) : Notice → Session
  | .listingStarts => { s with seen := [] }
  | .listed d => ⟨s.cluster.put w d, d.key?.toList ++ s.seen⟩
  | .listingEnds => ⟨(s.cluster.keepOnly w s.seen).markSynced w, []⟩
  | .applied d => { s with cluster := s.cluster.put w d }
  | .deleted d => { s with cluster := s.cluster.drop w d }

def receiveAll (w : Watched) (s : Session) (notices : List Notice) : Session :=
  notices.foldl (receive w) s

end Session

def Cluster.afterSession (c : Cluster) (w : Watched) (notices : List Notice) : Cluster :=
  (Session.receiveAll w ⟨c, []⟩ notices).cluster

inductive Phase where
  | waiting
  | listing
  | watching
  deriving Repr, DecidableEq

inductive ApiAction where
  /-- A page of a listing; `more` tells of pages to come. -/
  | page (objects : List Described) (more : Bool)
  | listFails
  | change (notice : Notice)
  | bookmark
  | watchFails
  /-- The connection ends and is opened again where it was. -/
  | watchCloses
  deriving Repr, DecidableEq

structure Watch where
  phase : Phase
  seen : List String
  deriving Repr, DecidableEq

def Watch.fresh : Watch := ⟨.waiting, []⟩

def pageNotices (begun more : Bool) (objects : List Described) : List Notice :=
  (if begun then [] else [.listingStarts]) ++ objects.map .listed ++
    (if more then [] else [.listingEnds])

def Watch.feed (w : Watched) (x : Watch) (next : Phase) (notices : List Notice) (c : Cluster) :
    Watch × Cluster :=
  let s := Session.receiveAll w ⟨c, x.seen⟩ notices
  (⟨next, s.seen⟩, s.cluster)

/-- An action that does not fit the phase is not answered. -/
def Watch.react (w : Watched) (x : Watch) (c : Cluster) (a : ApiAction) : Watch × Cluster :=
  match x.phase, a with
  | .waiting, .page objects more =>
    x.feed w (if more then .listing else .watching) (pageNotices false more objects) c
  | .listing, .page objects more =>
    x.feed w (if more then .listing else .watching) (pageNotices true more objects) c
  | .watching, .change notice => x.feed w .watching [notice] c
  | .waiting, .listFails | .listing, .listFails | .watching, .watchFails => (.fresh, c)
  | _, _ => (x, c)

end GatewayTelemetry

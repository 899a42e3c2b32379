import AcemcpRelay.Manifest

/-!
# LCE, as the relay relies on it

LCE is another service. What is written down here is what the relay's code and
comments assume of it: `begin` opens an area for a job, from the published content
of the root or from nothing, and an area that exists is left as it is; `stage`
writes files into the area and removes paths from it; `publish` replaces the
content of the root by the area, at once or at some later time; `abort` closes an
area that has not been published; a clear empties the content.

Contents are compared by hash, so that a content is a map from paths to hashes.
-/
namespace AcemcpRelay

/-- The files of a root or of an area: the hash of each path that is present. -/
abbrev Content := String → Option String

namespace Content

def none : Content := fun _ => Option.none

def set (content : Content) (path hash : String) : Content :=
  fun other => if other = path then some hash else content other

def remove (content : Content) (path : String) : Content :=
  fun other => if other = path then Option.none else content other

end Content

inductive AreaState where
  | staging
  /-- The publication has been accepted and takes place later. -/
  | accepted
  | published (revision : Int)
  | failed
  | aborted
  deriving DecidableEq, Repr

structure Area where
  tenant : String
  root : String
  files : Content
  state : AreaState

/-- The area after files have been written into it and paths removed from it. -/
def Area.stage (sha256 : String → String) (files : List ManifestFile) (deleted : List String)
    (area : Area) : Area :=
  { area with
    files := deleted.foldl Content.remove
      (files.foldl (fun content file => content.set file.path (sha256 file.content)) area.files) }

/-- A call of `codebase_remote_index` or `codebase_clear_index`. -/
inductive Request where
  | begin (tenant jobID root : String) (replaceRoot : Bool)
  | stage (jobID : String) (files : List ManifestFile) (deleted : List String)
  | publish (jobID : String)
  | status (jobID : String)
  | abort (jobID : String)
  | clearRoot (tenant root : String)
  | clearTenant (tenant : String)

/-- What LCE makes of a publication. -/
inductive Decision where
  | publish (revision : Int)
  | accept
  | reject

/-- The state of a publication as `publish`, `status` and `abort` report it. -/
inductive Report where
  | notSubmitted
  | publishing
  | completed (revision : Int)
  | failed
  | cancelled
  deriving DecidableEq, Repr

structure Cloud where
  contents : String → String → Content
  areas : String → Option Area

namespace Cloud

def empty : Cloud := { contents := fun _ _ => .none, areas := fun _ => none }

def setArea (cloud : Cloud) (jobID : String) (area : Area) : Cloud :=
  { cloud with areas := fun other => if other = jobID then some area else cloud.areas other }

def setContent (cloud : Cloud) (tenant root : String) (content : Content) : Cloud :=
  { cloud with
    contents := fun owner name =>
      if owner = tenant ∧ name = root then content else cloud.contents owner name }

/-- The area becomes the content of its root. -/
def release (cloud : Cloud) (jobID : String) (area : Area) (revision : Int) : Cloud :=
  (cloud.setArea jobID { area with state := .published revision }).setContent area.tenant area.root
    area.files

/-- A change of the area of a job, if it has one. -/
def onArea (cloud : Cloud) (jobID : String) (change : Area → Cloud) : Cloud :=
  match cloud.areas jobID with
  | none => cloud
  | some area => change area

/-- LCE executes a request. -/
def serve (sha256 : String → String) (decision : Decision) (cloud : Cloud) : Request → Cloud
  | .begin tenant jobID root replaceRoot =>
    match cloud.areas jobID with
    -- a repeated `begin` finds its area and leaves it as it is
    | some _ => cloud
    | none => cloud.setArea jobID
      -- an incremental job builds on what the root holds when it begins
      { tenant, root, files := if replaceRoot then .none else cloud.contents tenant root
        state := .staging }
  | .stage jobID files deleted => cloud.onArea jobID fun area =>
    -- nothing is staged into an area that was submitted or has ended
    if area.state = .staging then cloud.setArea jobID (area.stage sha256 files deleted) else cloud
  | .publish jobID => cloud.onArea jobID fun area =>
    if area.state = .staging then
      match decision with
      | .publish revision => cloud.release jobID area revision
      | .accept => cloud.setArea jobID { area with state := .accepted }
      | .reject => cloud.setArea jobID { area with state := .failed }
    else cloud
  | .status _ => cloud
  -- what is published stays published
  | .abort jobID => cloud.onArea jobID fun area =>
    if area.state = .staging ∨ area.state = .accepted then
      cloud.setArea jobID { area with state := .aborted }
    else cloud
  | .clearRoot tenant root => cloud.setContent tenant root .none
  | .clearTenant tenant =>
    { cloud with
      contents := fun owner root => if owner = tenant then .none else cloud.contents owner root }

/-- An accepted publication takes place. -/
def land (revision : Int) (jobID : String) (cloud : Cloud) : Cloud :=
  cloud.onArea jobID fun area =>
    if area.state = .accepted then cloud.release jobID area revision else cloud

/-- An accepted publication fails. -/
def lose (jobID : String) (cloud : Cloud) : Cloud :=
  cloud.onArea jobID fun area =>
    if area.state = .accepted then cloud.setArea jobID { area with state := .failed } else cloud

/-- What LCE answers about the publication of a job; `none` if it knows no such job. -/
def report (jobID : String) (cloud : Cloud) : Option Report :=
  (cloud.areas jobID).map fun area =>
    match area.state with
    | .staging => .notSubmitted
    | .accepted => .publishing
    | .published revision => .completed revision
    | .failed => .failed
    | .aborted => .cancelled

/-! ### Areas -/

variable {cloud : Cloud}

@[simp] theorem areas_setArea (jobID other : String) (area : Area) :
    (cloud.setArea jobID area).areas other = if other = jobID then some area else cloud.areas other :=
  rfl

@[simp] theorem areas_setContent (tenant root : String) (content : Content) :
    (cloud.setContent tenant root content).areas = cloud.areas := rfl

@[simp] theorem areas_release (jobID other : String) (area : Area) (revision : Int) :
    (cloud.release jobID area revision).areas other =
      if other = jobID then some { area with state := .published revision } else cloud.areas other :=
  rfl

/-- A request changes the area of its job only, and does not remove it. -/
theorem isSome_onArea {jobID other : String} {change : Area → Cloud}
    (kept : ∀ area, other ≠ jobID → (change area).areas other = cloud.areas other)
    (exists_area : ((cloud.onArea jobID change).areas other).isSome = true) :
    (cloud.areas other).isSome = true := by
  unfold onArea at exists_area
  cases found : cloud.areas jobID with
  | none =>
    rw [found] at exists_area
    exact exists_area
  | some area =>
    rw [found] at exists_area
    by_cases same : other = jobID
    · rw [same, found]
      rfl
    · rwa [← kept area same]

/-- Only `begin` opens an area. -/
theorem isSome_serve {sha256 : String → String} {decision : Decision} {request : Request}
    {jobID : String}
    (exists_area : ((cloud.serve sha256 decision request).areas jobID).isSome = true) :
    (cloud.areas jobID).isSome = true ∨
      ∃ tenant root replaceRoot, request = .begin tenant jobID root replaceRoot := by
  cases request with
  | begin tenant opened root replaceRoot =>
    by_cases same : jobID = opened
    · exact .inr ⟨tenant, root, replaceRoot, by rw [same]⟩
    · left
      simp only [serve] at exists_area
      split at exists_area
      · exact exists_area
      · simpa [same] using exists_area
  | status | clearRoot | clearTenant => exact .inl exists_area
  | stage target files deleted =>
    refine .inl (isSome_onArea (fun area different => ?_) exists_area)
    split <;> simp [different]
  | publish target =>
    refine .inl (isSome_onArea (fun area different => ?_) exists_area)
    split
    · cases decision <;> simp [different]
    · rfl
  | abort target =>
    refine .inl (isSome_onArea (fun area different => ?_) exists_area)
    split <;> simp [different]

theorem isSome_land {revision : Int} {target jobID : String}
    (exists_area : ((cloud.land revision target).areas jobID).isSome = true) :
    (cloud.areas jobID).isSome = true := by
  refine isSome_onArea (fun area different => ?_) exists_area
  split <;> simp [different]

theorem isSome_lose {target jobID : String}
    (exists_area : ((cloud.lose target).areas jobID).isSome = true) :
    (cloud.areas jobID).isSome = true := by
  refine isSome_onArea (fun area different => ?_) exists_area
  split <;> simp [different]

end Cloud

end AcemcpRelay

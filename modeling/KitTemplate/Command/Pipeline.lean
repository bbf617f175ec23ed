/-! Jobs handed from stage to stage. Every job has a part that it shares, such as a list of folders.
A copy of a job is a job of its own, but it shares that part with the job it was made from until
either is given another one: a revision of the shared part is seen by both. -/

namespace KitTemplate.Command

/-- What a stage does to the job it is handed. -/
inductive Revision (Job Shared : Type) where
  /-- Changes a copy, or the job itself. -/
  | change (copies : Bool) (change : Job → Job)
  /-- Gives another shared part to a copy, or to the job itself. -/
  | replaceShared (copies : Bool) (part : Shared)
  /-- Revises the shared part of a copy. -/
  | reviseShared (revise : Shared → Shared)

/-- The jobs made so far, each with the place of its part among the shared parts. -/
structure Pipeline (Job Shared : Type) where
  jobs : List (Job × Nat)
  parts : List Shared
  /-- What a copy takes over of a job. -/
  copy : Job → Job := id
  /-- The place of the job that the next stage is handed. -/
  current : Nat := 0

namespace Pipeline

variable {Job Shared : Type}

def start (copy : Job → Job) (job : Job) (part : Shared) : Pipeline Job Shared :=
  { jobs := [(job, 0)], parts := [part], copy }

/-- The job at a place, with its shared part as it is by now. -/
def job? (pipeline : Pipeline Job Shared) (place : Nat) : Option (Job × Shared) := do
  let (job, part) ← pipeline.jobs[place]?
  return (job, ← pipeline.parts[part]?)

/-- The pipeline with a job in hand that may be changed: a copy, or the current one. -/
def take (pipeline : Pipeline Job Shared) (copies : Bool) : Pipeline Job Shared :=
  match copies, pipeline.jobs[pipeline.current]? with
  | true, some (job, part) =>
    { pipeline with
      jobs := pipeline.jobs ++ [(pipeline.copy job, part)], current := pipeline.jobs.length }
  | _, _ => pipeline

def apply (pipeline : Pipeline Job Shared) : Revision Job Shared → Pipeline Job Shared
  | .change copies change =>
    let pipeline := pipeline.take copies
    { pipeline with
      jobs := pipeline.jobs.modify pipeline.current fun entry => (change entry.1, entry.2) }
  | .replaceShared copies part =>
    let pipeline := pipeline.take copies
    { pipeline with
      parts := pipeline.parts ++ [part]
      jobs := pipeline.jobs.modify pipeline.current fun entry =>
        (entry.1, pipeline.parts.length) }
  | .reviseShared revise =>
    let pipeline := pipeline.take true
    match pipeline.jobs[pipeline.current]? with
    | some (_, part) => { pipeline with parts := pipeline.parts.modify part revise }
    | none => pipeline

end Pipeline

end KitTemplate.Command

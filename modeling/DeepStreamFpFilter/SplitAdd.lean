import DeepStreamFpFilter.SpliceLosses

/-! `add_elem_probe_cb` as the GStreamer calls it makes, each a step of its own on the stream
muxer's streaming thread, while the primary detector and the filter bins push from theirs.
The callback starts when an item reaches the probe on the muxer's `src` pad: it removes the
probe, and the item never leaves the callback, which returns `GST_PAD_PROBE_DROP`. Then come
`gst_bin_add`, `gst_pad_unlink`, the two `gst_element_link` of `gst_element_link_many` and
`gst_element_set_state`; the muxer pushes nothing until the callback returns. The runs are
those of enabling: `add_element_to_pipeline` calls and pushes, no removal, every GStreamer
call succeeding as in `DataFlow`. A run in which no element pushes while the callback is under
way is a run of `DataFlow`, where the callback is one step; a push between `gst_pad_unlink` and
the first link finds no peer. -/

namespace DeepStreamFpFilter.SplitAdd

open Gst DynamicLink DataFlow

inductive AddCall where
  | binAdd
  | padUnlink
  | linkPrev
  | linkNext
  | setState
  deriving DecidableEq, Repr

/-- One call of `add_elem_probe_cb`: the pipeline it leaves and the call after it. A failed
`gst_pad_unlink` ends the callback, a failed first link ends `gst_element_link_many`. -/
def resumeAdd (info : LinkUnlinkInfo) : AddCall → Pipeline → Pipeline × Option AddCall
  | .binAdd, p => ((p.binAdd Faults.none info.mainElement).getD p, some .padUnlink)
  | .padUnlink, p =>
    match p.padUnlink Faults.none info.mainPrevElement info.mainNextElement with
    | none => (p, none)
    | some p => (p, some .linkPrev)
  | .linkPrev, p =>
    match p.elementLink Faults.none info.mainPrevElement info.mainElement with
    | none => (p, some .setState)
    | some p => (p, some .linkNext)
  | .linkNext, p =>
    ((p.elementLink Faults.none info.mainElement info.mainNextElement).getD p, some .setState)
  | .setState, p => (p.setState info.mainElement .playing, none)

variable {info : LinkUnlinkInfo} {p : Pipeline}

structure Racing where
  flow : Flow
  /-- the `add_elem_probe_cb` under way on the muxer's thread, with the call it makes next -/
  adding : Option (LinkUnlinkInfo × AddCall)

inductive Event where
  | emit
  | forward (e : Elem)
  | add (bin : Elem)
  | resume

def step (r : Racing) : Event → Racing
  | .emit =>
    match r.adding, r.flow.upstream, r.flow.splice.probesOn .streammux with
    | none, _ :: rest, .addElem info :: _ =>
      ⟨{ r.flow with
          upstream := rest
          splice := r.flow.splice.removeProbe .streammux (.addElem info) },
        some (info, .binAdd)⟩
    | none, _, _ => ⟨DataFlow.step r.flow .emit, none⟩
    | some _, _, _ => r
  | .forward e => { r with flow := DataFlow.step r.flow (.forward e) }
  | .add bin => { r with flow := DataFlow.step r.flow (.add bin) }
  | .resume =>
    match r.adding with
    | none => r
    | some (info, call) =>
      ⟨r.flow.setSplice
          { r.flow.splice with pipeline := (resumeAdd info call r.flow.splice.pipeline).1 },
        (resumeAdd info call r.flow.splice.pipeline).2.map (info, ·)⟩

def run (r : Racing) (events : List Event) : Racing := events.foldl step r

def start (serial : Option Nat) (stream : List Item) : Racing :=
  ⟨DataFlow.start serial stream, none⟩

def Event.isAdd : Event → Bool
  | .add _ => true
  | _ => false

def Event.namesFilterBin : Event → Bool
  | .add bin => bin.isFilterBin
  | _ => true

end DeepStreamFpFilter.SplitAdd

import SegmentedFiles.Interaction
import SegmentedFiles.Md5
import SegmentedFiles.Store.Memory
import SegmentedFiles.Store.Fault
import SegmentedFiles.Disk.Tree
import SegmentedFiles.Text.Name
import SegmentedFiles.Time.Reading
import SegmentedFiles.Segment.Name
import SegmentedFiles.Segment.Plan
import SegmentedFiles.Volume.Path
import SegmentedFiles.Volume.Error
import SegmentedFiles.Volume.Source
import SegmentedFiles.Volume.Replace
import SegmentedFiles.Volume.Write
import SegmentedFiles.Json.Skip
import SegmentedFiles.Service.Respond
import SegmentedFiles.Local.Store
import SegmentedFiles.Text.Quoted
import SegmentedFiles.Swift.Store
import SegmentedFiles.Launch.Report
import SegmentedFiles.Main
import SegmentedFiles.Http.MediaType
import SegmentedFiles.Http.Message
import SegmentedFiles.Http.Percent
import SegmentedFiles.Http.Query
import SegmentedFiles.Proofs.Interaction.Outcome
import SegmentedFiles.Proofs.Volume.Action
import SegmentedFiles.Proofs.Bytes.Chunk
import SegmentedFiles.Proofs.Store.Failing
import SegmentedFiles.Proofs.Store.Lookup
import SegmentedFiles.Proofs.Segment.Name
import SegmentedFiles.Proofs.Segment.Plan
import SegmentedFiles.Proofs.Volume.Source
import SegmentedFiles.Proofs.Volume.Path
import SegmentedFiles.Proofs.Volume.Keeps
import SegmentedFiles.Proofs.Volume.Layout
import SegmentedFiles.Proofs.Volume.File
import SegmentedFiles.Proofs.Volume.Prepare
import SegmentedFiles.Proofs.Volume.Write
import SegmentedFiles.Proofs.Volume.Resume
import SegmentedFiles.Proofs.Volume.Create
import SegmentedFiles.Proofs.Store.Without
import SegmentedFiles.Proofs.Volume.Remove
import SegmentedFiles.Proofs.Volume.Pruned
import SegmentedFiles.Proofs.Volume.Run
import SegmentedFiles.Proofs.Volume.Orphans
import SegmentedFiles.Proofs.Store.Alike
import SegmentedFiles.Proofs.Volume.Owned
import SegmentedFiles.Proofs.Volume.Exact
import SegmentedFiles.Proofs.Volume.Ancestors
import SegmentedFiles.Proofs.Volume.Members
import SegmentedFiles.Proofs.Store.Places
import SegmentedFiles.Proofs.Volume.Changes
import SegmentedFiles.Proofs.Volume.Isolation
import SegmentedFiles.Proofs.Volume.Tree
import SegmentedFiles.Proofs.Disk.Tree
import SegmentedFiles.Proofs.Local.Names
import SegmentedFiles.Proofs.Local.InStep
import SegmentedFiles.Proofs.Local.Mirror
import SegmentedFiles.Proofs.Local.Refine
import SegmentedFiles.Proofs.Local.Accounted
import SegmentedFiles.Proofs.Interaction.Trace
import SegmentedFiles.Proofs.Swift.Action
import SegmentedFiles.Proofs.Swift.Exchange
import SegmentedFiles.Proofs.Swift.Session
import SegmentedFiles.Proofs.Store.Territory
import SegmentedFiles.Proofs.Volume.Steady
import SegmentedFiles.Proofs.Volume.Within
import SegmentedFiles.Proofs.Volume.Below
import SegmentedFiles.Proofs.Volume.Commute
import SegmentedFiles.Proofs.Volume.Tenants
import SegmentedFiles.Proofs.Volume.Refused
import SegmentedFiles.Proofs.Volume.Contents
import SegmentedFiles.Proofs.Volume.Restart
import SegmentedFiles.Proofs.Volume.Overwrite
import SegmentedFiles.Proofs.Volume.Rechunk
import SegmentedFiles.Proofs.Segment.Spans
import SegmentedFiles.Proofs.Store.Recorded
import SegmentedFiles.Proofs.Volume.Touched
import SegmentedFiles.Proofs.Text.Utf8
import SegmentedFiles.Proofs.Volume.Children
import SegmentedFiles.Proofs.Text.Pieces
import SegmentedFiles.Proofs.Http.Percent
import SegmentedFiles.Proofs.Http.Url
import SegmentedFiles.Proofs.Swift.Sent
import SegmentedFiles.Proofs.Swift.Names
import SegmentedFiles.Proofs.Object.Listing
import SegmentedFiles.Proofs.Store.Listing
import SegmentedFiles.Proofs.Swift.Run
import SegmentedFiles.Proofs.Swift.References
import SegmentedFiles.Proofs.Http.Query
import SegmentedFiles.Proofs.Swift.Listing
import SegmentedFiles.Proofs.Swift.Pages
import SegmentedFiles.Proofs.Object.Range
import SegmentedFiles.Proofs.Volume.Asked
import SegmentedFiles.Proofs.Volume.Ranges
import SegmentedFiles.Proofs.Volume.Members

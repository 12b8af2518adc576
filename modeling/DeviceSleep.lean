import DeviceSleep.Config.Saving
import DeviceSleep.Main
import DeviceSleep.Mesh
import DeviceSleep.Session
import DeviceSleep.Proofs.Registry.History
import DeviceSleep.Proofs.Image.RoundTrip
import DeviceSleep.Proofs.Session.Conservation
import DeviceSleep.Proofs.Session.Freezing
import DeviceSleep.Proofs.Hal.Sleeps
import DeviceSleep.Proofs.Builder.Replay
import DeviceSleep.Proofs.Image.Canonical
import DeviceSleep.Proofs.Image.Newer
import DeviceSleep.Proofs.Session.Regrouping
import DeviceSleep.Proofs.Image.Sizes
import DeviceSleep.Proofs.Image.Safety
import DeviceSleep.Proofs.Config.Agreement
import DeviceSleep.Proofs.Control.Checking
import DeviceSleep.Proofs.Control.Showing
import DeviceSleep.Proofs.Registry.Stability
import DeviceSleep.Proofs.Builder.Connection
import DeviceSleep.Proofs.Profile.Described
import DeviceSleep.Proofs.Toml.Quoted
import DeviceSleep.Proofs.Toml.Values
import DeviceSleep.Proofs.Toml.Lines
import DeviceSleep.Proofs.Toml.Sections
import DeviceSleep.Proofs.Config.Written
import DeviceSleep.Proofs.Files.Writing
import DeviceSleep.Proofs.Config.Reloading
import DeviceSleep.Proofs.Platform.Verdict
import DeviceSleep.Proofs.Image.Truncation
import DeviceSleep.Proofs.Interface.Reading
import DeviceSleep.Proofs.Control.Listing
import DeviceSleep.Proofs.Config.Overrides
import DeviceSleep.Proofs.Flags.Joining
import DeviceSleep.Proofs.Mesh.Notices

import StoryPlayer.Main
import StoryPlayer.Script.Writing
import StoryPlayer.Service.Answer
import StoryPlayer.Proofs.Player.Story
import StoryPlayer.Proofs.Playback.Order
import StoryPlayer.Proofs.Playback.Progress
import StoryPlayer.Proofs.Playback.Streaming
import StoryPlayer.Proofs.Text.Trimmed
import StoryPlayer.Proofs.Script.Proper
import StoryPlayer.Proofs.Script.RoundTrip
import StoryPlayer.Proofs.Playback.Ended
import StoryPlayer.Proofs.Stream.Opening
import StoryPlayer.Proofs.Playback.Opening
import StoryPlayer.Proofs.Playback.Reload
import StoryPlayer.Proofs.Playback.Staging
import StoryPlayer.Proofs.Terminal.Prints
import StoryPlayer.Proofs.Playback.Failing
import StoryPlayer.Proofs.Playback.Early
import StoryPlayer.Proofs.Wire.Records
import StoryPlayer.Proofs.Session.Exits
import StoryPlayer.Proofs.Playback.Shown
import StoryPlayer.Proofs.Stage.InStep
import StoryPlayer.Proofs.Settings.Stored
import StoryPlayer.Proofs.Session.Overdue
import StoryPlayer.Proofs.Script.Joined
import StoryPlayer.Proofs.Script.Snapshots
import StoryPlayer.Proofs.Stage.Pictures
import StoryPlayer.Proofs.Playback.Finishing
import StoryPlayer.Proofs.Playback.Skipping
import StoryPlayer.Proofs.Script.Checked
import StoryPlayer.Proofs.Playback.Returning
import StoryPlayer.Proofs.Playback.Commuting
import StoryPlayer.Proofs.Store.History
import StoryPlayer.Proofs.Wire.Broken
import StoryPlayer.Proofs.Settings.Merged
import StoryPlayer.Proofs.Script.Summed
import StoryPlayer.Proofs.Script.Recorded
import StoryPlayer.Proofs.Stage.Slots
import StoryPlayer.Proofs.Stream.Header

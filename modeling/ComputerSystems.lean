import ComputerSystems.Proof.Kernel.ReadDataSlice
import ComputerSystems.Proof.Kernel.ReadDataCorrupt
import ComputerSystems.Construction.Kernel.State
import ComputerSystems.Construction.Kernel.Terminal
import ComputerSystems.Construction.Kernel.Syscalls
import ComputerSystems.Proof.Kernel.OpenLaw
import ComputerSystems.Library.Run
import ComputerSystems.Proof.Kernel.DescriptorTable
import ComputerSystems.Construction.Kernel.Keyboard
import ComputerSystems.Construction.Kernel.System
import ComputerSystems.Library.Stacks
import ComputerSystems.Proof.Kernel.Calls
import ComputerSystems.Proof.Kernel.ProcessStacks
import ComputerSystems.Proof.Kernel.ProcessSteps
import ComputerSystems.Proof.Kernel.ProcessTable
import ComputerSystems.Proof.Kernel.ContextSwitch
import ComputerSystems.Proof.Kernel.VideoMapping
import ComputerSystems.Proof.Kernel.PageIsolation
import ComputerSystems.Proof.Kernel.Screen
import ComputerSystems.Proof.Kernel.TerminalScreens
import ComputerSystems.Proof.Kernel.KeyboardQueue
import ComputerSystems.Proof.Kernel.FailedCalls
import ComputerSystems.Library.Field
import ComputerSystems.Proof.Kernel.DirectoryNames
import ComputerSystems.Proof.Kernel.ReadBounds
import ComputerSystems.Proof.Kernel.CommandLine
import ComputerSystems.Library.Reader
import ComputerSystems.Proof.Kernel.ReadPieces
import ComputerSystems.Proof.Kernel.DirectoryLookup
import ComputerSystems.Construction.Kernel.Rtc
import ComputerSystems.Proof.Kernel.RtcTicks
import ComputerSystems.Construction.Mp1.Board
import ComputerSystems.Library.Links
import ComputerSystems.Proof.Mp1.Refinement
import ComputerSystems.Proof.Mp1.ScreenConsistency
import ComputerSystems.Construction.Mp2.Maze
import ComputerSystems.Proof.Mp2.MazeCells
import ComputerSystems.Proof.Mp2.WormPhase
import ComputerSystems.Proof.Mp2.Connected
import ComputerSystems.Construction.Mp2.Display
import ComputerSystems.Construction.Mp2.Game
import ComputerSystems.Library.Canvas
import ComputerSystems.Proof.Mp2.LineBuffers
import ComputerSystems.Proof.Mp2.Drawing
import ComputerSystems.Proof.Mp2.ViewWindow
import ComputerSystems.Proof.Mp2.Furnishing
import ComputerSystems.Proof.Mp2.Exploring
import ComputerSystems.Proof.Mp2.MazePicture
import ComputerSystems.Proof.Kernel.DirectoryEnd
import ComputerSystems.Proof.Kernel.FailedReads
import ComputerSystems.Proof.Kernel.LoadedPrograms
import ComputerSystems.Proof.Kernel.LineDiscipline
import ComputerSystems.Proof.Kernel.TerminalPage
import ComputerSystems.Construction.Mp2.BuildBuffer
import ComputerSystems.Proof.Mp2.BuildBufferLayout
import ComputerSystems.Proof.Mp2.BuildBufferDisplay
import ComputerSystems.Construction.Tux.Driver
import ComputerSystems.Library.PrefixCode
import ComputerSystems.Proof.Tux.Transmit
import ComputerSystems.Proof.Tux.Commands
import ComputerSystems.Proof.Tux.Reassembly
import ComputerSystems.Proof.Tux.Throttle
import ComputerSystems.Construction.Kernel.I8259
import ComputerSystems.Proof.Kernel.InterruptMasks
import ComputerSystems.Proof.Kernel.VideoClearing
import ComputerSystems.Proof.Kernel.OutputPointers
import ComputerSystems.Construction.Kernel.ContextSwitchCode
import ComputerSystems.Proof.Kernel.SwitchCode
import ComputerSystems.Construction.Kernel.MemoryRoutines
import ComputerSystems.Proof.Kernel.MemoryRoutines
import ComputerSystems.Construction.Kernel.Printf
import ComputerSystems.Library.Numeral
import ComputerSystems.Proof.Kernel.PrintfFormat
import ComputerSystems.Proof.Kernel.Numerals
import ComputerSystems.Construction.Kernel.BufferAccess
import ComputerSystems.Proof.Kernel.BufferIndices
import ComputerSystems.Proof.Kernel.KeyboardLayout
import ComputerSystems.Proof.Kernel.LineEcho
import ComputerSystems.Construction.Mp2.ShowScreen
import ComputerSystems.Proof.Mp2.ShowScreen
import ComputerSystems.Proof.Mp2.WindowMove
import ComputerSystems.Proof.Mp2.BlockDrawing
import ComputerSystems.Construction.Mp2.MazeArray
import ComputerSystems.Proof.Mp2.LineAgreement
import ComputerSystems.Proof.Mp1.BlinkTiming
import ComputerSystems.Proof.Mp1.Synchrony
import ComputerSystems.Construction.Fish.Blink
import ComputerSystems.Proof.Fish.Refinement
import ComputerSystems.Proof.Fish.Allocator
import ComputerSystems.Proof.Fish.Agreement
import ComputerSystems.Construction.Grep.DoOneFile
import ComputerSystems.Library.Lines
import ComputerSystems.Proof.Grep.ArrayLoops
import ComputerSystems.Proof.Grep.Scan
import ComputerSystems.Proof.Grep.Refill
import ComputerSystems.Proof.Grep.Matches
import ComputerSystems.Library.Cdecl
import ComputerSystems.Library.StackShape
import ComputerSystems.Library.StackTyping
import ComputerSystems.Construction.Mp1.EntryPoints
import ComputerSystems.Proof.Mp1.CallingConvention
import ComputerSystems.Construction.Mp2.RtcThread
import ComputerSystems.Proof.Mp2.Walking
import ComputerSystems.Construction.Mp2.FruitCalls
import ComputerSystems.Proof.Mp2.Following
import ComputerSystems.Proof.Mp2.FruitCount
import ComputerSystems.Construction.Mp2.WormSteps
import ComputerSystems.Proof.Mp2.WormSteps
import ComputerSystems.Construction.Mp2.MarkMazeArea
import ComputerSystems.Library.Exploration
import ComputerSystems.Proof.Mp2.AreaSearch
import ComputerSystems.Proof.Mp2.AreaSearchArray
import ComputerSystems.Proof.Mp2.RepairScan
import ComputerSystems.Construction.Tux.Buttons
import ComputerSystems.Proof.Tux.Buttons
import ComputerSystems.Construction.Mp2.ShowStatus
import ComputerSystems.Proof.Mp2.StatusText
import ComputerSystems.Proof.Mp2.StatusBar
import ComputerSystems.Construction.Mp2.GameLoop
import ComputerSystems.Proof.Mp2.PlayerDrawing
import ComputerSystems.Proof.Mp2.PlayerPicture
import ComputerSystems.Proof.Mp2.PlayerView
import ComputerSystems.Proof.Mp2.PlayerShown
import ComputerSystems.Proof.Mp2.PlayerTicks
import ComputerSystems.Proof.Mp2.LevelHall
import ComputerSystems.Proof.Mp2.MonitorShows
import ComputerSystems.Proof.Mp2.StatusFollows
import ComputerSystems.Library.Reach
import ComputerSystems.Proof.Mp2.Winnable
import ComputerSystems.Library.Rotation
import ComputerSystems.Proof.Kernel.Fairness
import ComputerSystems.Proof.Kernel.Deeds
import ComputerSystems.Proof.Kernel.Noninterference
import ComputerSystems.Library.Slots
import ComputerSystems.Proof.Kernel.Channels
import ComputerSystems.Library.Program
import ComputerSystems.Construction.User.Programs
import ComputerSystems.Proof.Kernel.ChannelReads
import ComputerSystems.Proof.User.Programs
import ComputerSystems.Construction.Fish.Main
import ComputerSystems.Proof.Fish.Cast
import ComputerSystems.Proof.Fish.AddFrames
import ComputerSystems.Proof.Fish.Film
import ComputerSystems.Construction.Mp2.Threads
import ComputerSystems.Proof.Mp2.Threads
import ComputerSystems.Proof.Mp2.ThreadsLock
